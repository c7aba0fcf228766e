import TwoPhase.Proofs.CheckedQuotient
import TwoPhase.Proofs.MatrixForms

/-!
Row reduction of arrays of integers and fractions in any mixture. The result is free of doubles
exactly if no quotient is refused along the way. None is, for instance, where each column that may
hold a pivot has at most one integer other than zero; then both passes go as over the rationals.
Arrays of fractions are of this kind. Arrays of integers in general are not: their quotients are
rounded, or too large for a double.
-/
namespace TwoPhase

namespace Reduction

open Arithmetic ExactNumber

def HasFloat (g : Grid Value) : Prop := ∃ i < g.height, ∃ j < g.width, (g.cell i j).IsFloat

section Doubles

variable {g : Grid ExactNumber} {k : Grid Value} {r c : Nat}

theorem hasFloat_clearColumn {g : Grid Value} (hc : c < g.width)
    (hk : clearColumn (m := Except ArithmeticFault) g r c = .ok k) (h : HasFloat g) :
    HasFloat k := by
  obtain ⟨i, hi, j, hj, hfloat⟩ := h
  obtain ⟨hheight, hwidth, hcells⟩ := (clearColumn_eq_ok_iff hc).1 hk
  exact ⟨i, hheight.symm ▸ hi, j, hwidth.symm ▸ hj, isFloat_clearedCell hfloat (hcells i hi j hj)⟩

theorem hasFloat_swapRows {g : Grid Value} {r s : Nat} (hr : r < g.height) (hs : s < g.height)
    (h : HasFloat g) : HasFloat (swapRows g r s) := by
  obtain ⟨i, hi, j, hj, hfloat⟩ := h
  have hheight : (swapRows g r s).height = g.height := Grid.height_ofFn ..
  have hrow : Equiv.swap r s i < g.height := by
    rw [Equiv.swap_apply_def]
    split_ifs <;> assumption
  refine ⟨Equiv.swap r s i, hheight.symm ▸ hrow, j, hj, ?_⟩
  rwa [swapRows, Grid.cell_ofFn _ _ _ hrow hj, ← Equiv.swap_apply_def, Equiv.swap_apply_self]

/-- A clearing without a refused quotient leaves the same numbers. -/
theorem clearsView_value {w limit : Nat} (hlimit : limit ≤ w) :
    ClearsView Refused ArithmeticFault (Grid.map value) w limit := by
  intro g k r c hw hr hc h
  have hc : c < g.width := hw ▸ hc.trans_le hlimit
  obtain ⟨hheight, hwidth, hcells⟩ := (clearColumn_eq_ok_iff hc).1 h
  refine (clearColumn_eq_ok_iff (g := g.map value) hc).2
    ⟨by simp [hheight], hwidth, fun i hi j hj => ?_⟩
  rw [Grid.height_map] at hi
  rw [Grid.cell_map (hheight.symm ▸ hi) (hwidth.symm ▸ hj)]
  exact clearedCell_value hr hc hi hj (hcells i hi j hj)

theorem hasFloat_clearColumn_of_refused {refused : Refused} (hr : r < g.height) (hc : c < g.width)
    (h : clearColumn (m := Except Refused) g r c = .error refused)
    (hk : clearColumn (m := Except ArithmeticFault) (g.map value) r c = .ok k) : HasFloat k := by
  by_contra hnone
  obtain ⟨hheight, hwidth, hcells⟩ := (clearColumn_eq_ok_iff (g := g.map value) hc).1 hk
  rw [Grid.height_map] at hheight
  have hreturns : ∀ i < g.height, ∀ j < g.width,
      ∃ x, clearedCell (Except Refused) g r c i j = .ok x := by
    intro i hi j hj
    cases hcell : clearedCell (Except Refused) g r c i j with
    | ok x => exact ⟨x, rfl⟩
    | error _ =>
      have hfloat := isFloat_clearedCell_of_refused hr hc hi hj hcell
        (hcells i (by rwa [Grid.height_map]) j hj)
      exact absurd ⟨i, hheight.symm ▸ hi, j, hwidth.symm ▸ hj, hfloat⟩ hnone
  obtain ⟨k', hk'⟩ := exists_clearColumn hc hreturns
  rw [hk'] at h
  cases h

theorem Pass.hasFloat_of_refused {pivots : List (Nat × Nat)} {cols : List Nat}
    {x : Except Refused (Implicit ExactNumber)} (h : Pass Refused g pivots cols x)
    (hcols : ∀ c ∈ cols, c < g.width) {refused : Refused} (hx : x = .error refused)
    {s : Implicit Value}
    (hs : reduceAlong (m := Except ArithmeticFault) (g.map value) pivots cols = .ok s) :
    HasFloat s.grid := by
  have hsame : ∀ {g : Grid ExactNumber} {pivots} {c}, c < g.width →
      pivotRow? (Except ArithmeticFault) (g.map value) c (freeRows g.height pivots) =
        pivotRow? (Except Refused) g c (freeRows g.height pivots) := fun hc =>
    (sameZeros_map isZero_value le_rfl).pivotRow?_eq rfl hc fun i hi => (mem_freeRows.1 hi).1
  induction h with
  | done => cases hx
  | full => cases hx
  | @skip g _ c _ _ hopen hrow _ ih =>
    rw [reduceAlong_cons, Grid.height_map, if_neg hopen, hsame (hcols c List.mem_cons_self),
      hrow] at hs
    exact ih (fun c' hc' => hcols c' (List.mem_cons_of_mem c hc')) hx hs
  | @fail g _ c _ _ _ hopen hrow hclear =>
    have hc := hcols c List.mem_cons_self
    rw [reduceAlong_cons, Grid.height_map, if_neg hopen, hsame hc, hrow] at hs
    obtain ⟨k, hk, hs⟩ := bind_eq_ok.1 hs
    have hwidth := ((clearColumn_eq_ok_iff (g := g.map value) hc).1 hk).2.1
    exact (pass_iff.2 hs).keeps (fun _ hc hk' => hasFloat_clearColumn hc hk')
      (fun c' hc' => hwidth.symm ▸ hcols c' (List.mem_cons_of_mem c hc')) rfl
      (hasFloat_clearColumn_of_refused (lt_of_pivotRow? hrow) hc hclear hk)
  | @clear g _ _ c _ _ _ hopen hrow hclear _ ih =>
    have hc := hcols c List.mem_cons_self
    rw [reduceAlong_cons, Grid.height_map, if_neg hopen, hsame hc, hrow] at hs
    obtain ⟨k, hk, hs⟩ := bind_eq_ok.1 hs
    have hwidth := ((clearColumn_eq_ok_iff hc).1 hclear).2.1
    obtain rfl := Except.ok.inj
      (hk.symm.trans (clearsView_value le_rfl rfl (lt_of_pivotRow? hrow) hc hclear))
    exact ih (fun c' hc' => hwidth.symm ▸ hcols c' (List.mem_cons_of_mem c hc')) hx hs

variable {limit : Nat}

/-- A first pass that returns either went without a refused quotient or leaves a double. -/
theorem implicit_value_cases (hlimit : limit ≤ g.width) {t : Implicit Value}
    (ht : implicit (m := Except ArithmeticFault) (g.map value) limit = .ok t) :
    (∃ s, implicit (m := Except Refused) g limit = .ok s ∧ t = ⟨s.grid.map value, s.pivots⟩) ∨
      HasFloat t.grid := by
  cases hs : implicit (m := Except Refused) g limit with
  | ok s =>
    have hview := (sameZeros_map isZero_value hlimit).implicit_eq (clearsView_value hlimit)
      hlimit rfl hs
    exact .inl ⟨s, rfl, Except.ok.inj (ht.symm.trans hview)⟩
  | error _ =>
    exact .inr ((pass_iff.2 hs).hasFloat_of_refused
      (fun _ hc => (List.mem_range.1 hc).trans_le hlimit) rfl ht)

theorem explicit_value_cases (hlimit : limit ≤ g.width) {d : Grid Value} {swaps : Nat}
    (hd : explicit (m := Except ArithmeticFault) (g.map value) limit = .ok (d, swaps)) :
    (∃ e, explicit (m := Except Refused) g limit = .ok (e, swaps) ∧ d = e.map value) ∨
      HasFloat d := by
  obtain ⟨t, ht, hpass⟩ := explicit_eq_ok_iff.1 hd
  rcases implicit_value_cases hlimit ht with ⟨s, hs, rfl⟩ | hfloat
  · have hwidth := (shape_of_implicit hlimit hs).2
    have hview := (sameZeros_map isZero_value hlimit).echelonAlong_eq hwidth
      (fun c hc => List.mem_range.1 hc) 0 0
    rw [hview, Prod.mk.injEq] at hpass
    exact .inl ⟨_, explicit_eq_ok_iff.2 ⟨s, hs, Prod.ext rfl hpass.2⟩, hpass.1.symm⟩
  · have hkept := keeps_echelonAlong (m := Except ArithmeticFault) hasFloat_swapRows 0 0
      (List.range limit) hfloat
    rw [hpass] at hkept
    exact .inr hkept

end Doubles

section Lone

variable {x y : ExactNumber} {g : Grid ExactNumber} {limit r c : Nat}

/-- The columns left of `limit` have at most one integer each that is not zero. -/
def LoneIntegers (g : Grid ExactNumber) (limit : Nat) : Prop :=
  ∀ c < limit, ∀ i < g.height, ∀ k < g.height,
    (g.cell i c).IsNonzeroInt → (g.cell k c).IsNonzeroInt → i = k

theorem exists_quotient (hy : y.rat ≠ 0) (h : ¬(x.IsNonzeroInt ∧ y.IsNonzeroInt)) :
    ∃ q, quotient x y = .ok q ∧ q.rat = x.rat / y.rat ∧ (q.rat = 0 ∨ ¬q.IsInt) := by
  by_cases hints : x.IsInt ∧ y.IsInt
  · have hx : x.rat = 0 := by
      by_contra hx
      exact h ⟨⟨hints.1, hx⟩, hints.2, hy⟩
    obtain ⟨a, rfl⟩ := exists_int hints.1
    obtain ⟨b, rfl⟩ := exists_int hints.2
    obtain rfl : a = 0 := Int.cast_eq_zero.1 hx
    have hvanishes : Vanishes 0 b := ⟨fun hb => hy (Int.cast_eq_zero.2 hb), by simp⟩
    refine ⟨.int 0, if_pos hvanishes, ?_, .inl hx⟩
    rw [hx, zero_div]
  · refine ⟨.fraction (x.rat / y.rat), ?_, rfl, .inr id⟩
    rw [quotient_eq hints, if_neg hy]

theorem exists_clearedCell (hpivot : (g.cell r c).rat ≠ 0) {i : Nat}
    (h : i ≠ r → ¬((g.cell i c).IsNonzeroInt ∧ (g.cell r c).IsNonzeroInt)) (j : Nat) :
    ∃ x, clearedCell (Except Refused) g r c i j = .ok x ∧
      x.rat = (if i = r then (g.cell i j).rat else
        (g.cell i j).rat - (g.cell i c).rat / (g.cell r c).rat * (g.cell r j).rat) ∧
      (x.IsNonzeroInt → (g.cell i j).IsNonzeroInt) := by
  rw [clearedCell]
  by_cases hir : i = r
  · exact ⟨_, if_pos hir, (if_pos hir).symm, id⟩
  rw [if_neg hir, if_neg hir]
  obtain ⟨factor, hfactor, hrat, hkind⟩ := exists_quotient hpivot (h hir)
  by_cases hzero : factor.rat = 0
  · refine ⟨g.cell i j, bind_eq_ok.2 ⟨factor, hfactor, if_pos (decide_eq_true hzero)⟩, ?_, id⟩
    rw [← hrat, hzero, zero_mul, sub_zero]
  · have hnonzero : ¬isZero (Except Refused) factor = true := fun h => hzero (of_decide_eq_true h)
    refine ⟨g.cell i j - factor * g.cell r j, bind_eq_ok.2 ⟨factor, hfactor, if_neg hnonzero⟩, ?_,
      fun hint => ?_⟩
    · rw [rat_sub, rat_mul, hrat]
    · have hproduct := ((isInt_combine _ _).1 hint.1).2
      exact absurd ((isInt_combine _ _).1 hproduct).1 (hkind.resolve_left hzero)

/-- Clearing is exact, and no new integers come up. -/
theorem LoneIntegers.clearColumn_eq (h : LoneIntegers g limit) (hlimit : limit ≤ g.width)
    (hr : r < g.height) (hc : c < limit) (hpivot : (g.cell r c).rat ≠ 0) :
    ∃ k, clearColumn (m := Except Refused) g r c = .ok k ∧
      k.map rat = cleared (g.map rat) r c ∧ LoneIntegers k limit := by
  have hcw : c < g.width := hc.trans_le hlimit
  have hcells := fun i (hi : i < g.height) j =>
    exists_clearedCell (j := j) hpivot fun hir hboth =>
      hir (h c hc i hi r hr hboth.1 hboth.2)
  obtain ⟨k, hk⟩ := exists_clearColumn hcw fun i hi j _ => (hcells i hi j).imp fun _ hx => hx.1
  obtain ⟨hheight, hwidth, hcell⟩ := (clearColumn_eq_ok_iff hcw).1 hk
  have hsame : ∀ i < g.height, ∀ j < g.width,
      (k.cell i j).rat = (if i = r then (g.cell i j).rat else
        (g.cell i j).rat - (g.cell i c).rat / (g.cell r c).rat * (g.cell r j).rat) ∧
      ((k.cell i j).IsNonzeroInt → (g.cell i j).IsNonzeroInt) := by
    intro i hi j hj
    obtain ⟨x, hx, hrat, hint⟩ := hcells i hi j
    obtain rfl := Except.ok.inj (hx.symm.trans (hcell i hi j hj))
    exact ⟨hrat, hint⟩
  refine ⟨k, hk, ?_, ?_⟩
  · refine Grid.ext_cell (by simp [hheight]) (by simp [hwidth]) fun i j hi hj => ?_
    rw [Grid.height_map, hheight] at hi
    rw [Grid.width_map, hwidth] at hj
    rw [Grid.cell_map (hheight.symm ▸ hi) (hwidth.symm ▸ hj), (hsame i hi j hj).1,
      cell_cleared (g := g.map rat) (by simpa using hi) hj, Grid.cell_map hi hj,
      Grid.cell_map hi hcw, Grid.cell_map hr hcw, Grid.cell_map hr hj]
  · intro c' hc' i hi l hl hint hint'
    rw [hheight] at hi hl
    have hc'w := hc'.trans_le hlimit
    exact h c' hc' i hi l hl ((hsame i hi c' hc'w).2 hint) ((hsame l hl c' hc'w).2 hint')

theorem LoneIntegers.reduceAlong_eq {pivots : List (Nat × Nat)} {cols : List Nat}
    {s : Implicit Rat} (hsweep : Sweep (g.map rat) pivots cols s) (h : LoneIntegers g limit)
    (hlimit : limit ≤ g.width) (hcols : ∀ c ∈ cols, c < limit) :
    ∃ t, reduceAlong (m := Except Refused) g pivots cols = .ok t ∧
      s = ⟨t.grid.map rat, t.pivots⟩ := by
  have hzeros : ∀ {w}, limit ≤ w → SameZeros (Except Refused) Id (Grid.map rat) w limit :=
    sameZeros_map fun _ => rfl
  have hfree : ∀ (g : Grid ExactNumber) (pivots), ∀ i ∈ freeRows g.height pivots, i < g.height :=
    fun _ _ i hi => (mem_freeRows.1 hi).1
  generalize hq : g.map rat = q at hsweep
  induction hsweep generalizing g with
  | done => exact ⟨_, rfl, by rw [hq]⟩
  | full _ _ hfull =>
    subst hq
    exact ⟨_, (reduceAlong_cons ..).trans (if_pos (hfull.trans (Grid.height_map rat g))), rfl⟩
  | skip hopen hrow _ ih =>
    subst hq
    rw [Grid.height_map] at hopen hrow
    rw [(hzeros hlimit).pivotRow?_eq rfl (hcols _ List.mem_cons_self) (hfree g _)] at hrow
    rw [reduceAlong_cons, if_neg hopen, hrow]
    exact ih h hlimit (fun c' hc' => hcols c' (List.mem_cons_of_mem _ hc')) rfl
  | @clear _ pivots c r cols s hopen hrow _ ih =>
    subst hq
    have hc := hcols c List.mem_cons_self
    obtain ⟨hr, hpivot⟩ := pivotRow?_eq_some hrow
    rw [Grid.height_map] at hopen hrow hr
    have hr := hfree g pivots r hr
    rw [Grid.cell_map hr (hc.trans_le hlimit)] at hpivot
    obtain ⟨k, hk, hcleared, hlone⟩ := h.clearColumn_eq hlimit hr hc hpivot
    have hwidth := ((clearColumn_eq_ok_iff (hc.trans_le hlimit)).1 hk).2.1
    obtain ⟨t, ht, hs⟩ := ih hlone (hwidth.symm ▸ hlimit)
      (fun c' hc' => hcols c' (List.mem_cons_of_mem _ hc')) hcleared
    rw [(hzeros hlimit).pivotRow?_eq rfl hc (hfree g _)] at hrow
    rw [reduceAlong_cons, if_neg hopen, hrow]
    exact ⟨t, bind_eq_ok.2 ⟨k, hk, ht⟩, hs⟩

/-- Both passes give the numbers that they give over the rationals. -/
theorem LoneIntegers.exists_passes (h : LoneIntegers g limit) (hlimit : limit ≤ g.width) :
    ∃ s e swaps, implicit (m := Except Refused) g limit = .ok s ∧
      explicit (m := Except Refused) g limit = .ok (e, swaps) ∧
      implicit (m := Except ArithmeticFault) ((g.map rat).map Value.fraction) limit =
        .ok ⟨(s.grid.map rat).map Value.fraction, s.pivots⟩ ∧
      explicit (m := Except ArithmeticFault) ((g.map rat).map Value.fraction) limit =
        .ok ((e.map rat).map Value.fraction, swaps) := by
  have hcols : ∀ c ∈ List.range limit, c < limit := fun c hc => List.mem_range.1 hc
  obtain ⟨t, hsweep, -, hfractions⟩ := exists_implicit (g := g.map rat) exact_fraction hlimit
  obtain ⟨s, hs, rfl⟩ := h.reduceAlong_eq hsweep hlimit hcols
  have hwidth := (shape_of_implicit hlimit hs).2
  have hrat := (sameZeros_map (m := Except Refused) (n := Id) (f := rat) (fun _ => rfl)
    hlimit).echelonAlong_eq hwidth hcols 0 0
  have hcell := (sameZeros_map (m := Id) (n := Except ArithmeticFault) exact_fraction.isZero
    hlimit).echelonAlong_eq (g := s.grid.map rat) hwidth hcols 0 0
  refine ⟨s, _, _, hs, explicit_eq_ok_iff.2 ⟨s, hs, rfl⟩, hfractions,
    explicit_eq_ok_iff.2 ⟨_, hfractions, ?_⟩⟩
  rw [hcell, hrat]

end Lone

end Reduction

namespace MatrixSource

open ExactNumber Reduction

variable {h w : Nat} {rows : List (List Value)}

def numberArray (a : Matrix (Fin h) (Fin w) ExactNumber) : MatrixSource :=
  .cells (.values (Tensor.ofMatrix (a.map value)))

def FloatFree (rows : List (List Value)) : Prop := ∀ row ∈ rows, ∀ v ∈ row, ¬v.IsFloat

theorem floatFree_rowLists (a : Matrix (Fin h) (Fin w) ExactNumber) :
    FloatFree (rowLists (a.map value)) := by
  intro row hrow v hv
  obtain ⟨i, rfl⟩ := (List.mem_ofFn' _ _).1 hrow
  obtain ⟨j, rfl⟩ := (List.mem_ofFn' _ _).1 hv
  exact (a i j).not_isFloat_value

theorem not_floatFree_of_hasFloat {g : Grid Value} (h : HasFloat g) : ¬FloatFree g.toLists := by
  obtain ⟨i, hi, j, hj, hfloat⟩ := h
  rw [Grid.toLists_eq_rowLists rfl rfl]
  intro hfree
  exact hfree _ ((List.mem_ofFn' _ _).2 ⟨⟨i, hi⟩, rfl⟩) _ ((List.mem_ofFn' _ _).2 ⟨⟨j, hj⟩, rfl⟩)
    hfloat

/-- Rows without doubles are those of exact numbers, where each grid that is given either stands for
exact numbers or has a double. -/
theorem floatFree_iff {σ τ : Type} {p : σ → Prop} {q : τ → Prop} (grid : σ → Grid Value)
    (numbers : τ → Grid ExactNumber)
    (hshape : ∀ y, q y → (numbers y).height = h ∧ (numbers y).width = w)
    (hview : ∀ y, q y → ∃ x, p x ∧ grid x = (numbers y).map value)
    (hcases : ∀ x, p x → (∃ y, q y ∧ grid x = (numbers y).map value) ∨ HasFloat (grid x)) :
    ((∃ x, p x ∧ (grid x).toLists = rows) ∧ FloatFree rows) ↔
      ∃ y, q y ∧ rowLists (((numbers y).matrix h w).map value) = rows := by
  have hlists : ∀ y, q y → ((numbers y).map value).toLists =
      rowLists (((numbers y).matrix h w).map value) := fun y hy =>
    Grid.toLists_map (hshape y hy).1 (hshape y hy).2 value
  constructor
  · rintro ⟨⟨x, hx, rfl⟩, hfree⟩
    rcases hcases x hx with ⟨y, hy, hgrid⟩ | hfloat
    · exact ⟨y, hy, by rw [hgrid, hlists y hy]⟩
    · exact absurd hfree (not_floatFree_of_hasFloat hfloat)
  · rintro ⟨y, hy, rfl⟩
    obtain ⟨x, hx, hgrid⟩ := hview y hy
    exact ⟨⟨x, hx, by rw [hgrid, hlists y hy]⟩, floatFree_rowLists _⟩

/-- The first pass returns without doubles exactly if no quotient is refused. -/
theorem implicitReduce_floatFree_iff (a : Matrix (Fin h) (Fin w) ExactNumber) (cols : Option Int)
    (inPlace : Bool) :
    ((numberArray a).implicitReduce (cols.map .int) inPlace = .ok rows ∧ FloatFree rows) ↔
      ∃ s, implicit (m := Except Refused) (Grid.ofMatrix a) (pivotLimit cols w) = .ok s ∧
        rowLists ((s.grid.matrix h w).map value) = rows := by
  have hlimit : pivotLimit cols w ≤ (Grid.ofMatrix a).width := pivotLimit_le cols w
  rw [numberArray, implicitReduce_eq_ok_iff cols (workspace_ofMatrix a value inPlace)]
  refine floatFree_iff Implicit.grid Implicit.grid (fun s hs => ?_) (fun s hs => ?_) fun t ht => ?_
  · obtain ⟨hheight, hwidth⟩ := shape_of_implicit hlimit hs
    exact ⟨hheight.trans (Grid.height_ofMatrix a), hwidth⟩
  · exact ⟨_, (sameZeros_map isZero_value hlimit).implicit_eq (clearsView_value hlimit) hlimit rfl
      hs, rfl⟩
  · refine (implicit_value_cases hlimit ht).imp_left ?_
    rintro ⟨s, hs, rfl⟩
    exact ⟨s, hs, rfl⟩

theorem explicitReduce_floatFree_iff (a : Matrix (Fin h) (Fin w) ExactNumber) (cols : Option Int)
    (inPlace : Bool) {swaps : Nat} :
    ((numberArray a).explicitReduce (cols.map .int) inPlace = .ok (rows, swaps) ∧ FloatFree rows) ↔
      ∃ e, explicit (m := Except Refused) (Grid.ofMatrix a) (pivotLimit cols w) = .ok (e, swaps) ∧
        rowLists ((e.matrix h w).map value) = rows := by
  have hlimit : pivotLimit cols w ≤ (Grid.ofMatrix a).width := pivotLimit_le cols w
  rw [numberArray, explicitReduce_eq_ok_iff cols (workspace_ofMatrix a value inPlace)]
  refine floatFree_iff id id (fun e he => ?_) (fun e he => ?_) fun d hd => ?_
  · obtain ⟨hheight, hwidth⟩ := shape_of_explicit hlimit he
    exact ⟨hheight.trans (Grid.height_ofMatrix a), hwidth⟩
  · exact ⟨_, (sameZeros_map isZero_value hlimit).explicit_eq (clearsView_value hlimit) hlimit rfl
      he, rfl⟩
  · exact explicit_value_cases hlimit hd

/-- Row reduction of exact numbers stays exact where no quotient of integers has to be rounded to a
double other than zero, and only there; it does so where the integers stand alone. -/
theorem reduce_exactly_iff (a : Matrix (Fin h) (Fin w) ExactNumber) (cols : Option Int)
    (inPlace : Bool) :
    (∀ rows, (numberArray a).implicitReduce (cols.map .int) inPlace = .ok rows ∧ FloatFree rows ↔
      ∃ s, implicit (m := Except Refused) (Grid.ofMatrix a) (pivotLimit cols w) = .ok s ∧
        rowLists ((s.grid.matrix h w).map value) = rows) ∧
    (∀ rows swaps,
      (numberArray a).explicitReduce (cols.map .int) inPlace = .ok (rows, swaps) ∧ FloatFree rows ↔
        ∃ e, explicit (m := Except Refused) (Grid.ofMatrix a) (pivotLimit cols w) =
          .ok (e, swaps) ∧ rowLists ((e.matrix h w).map value) = rows) ∧
    (LoneIntegers (Grid.ofMatrix a) (pivotLimit cols w) →
      ∃ (s r : Matrix (Fin h) (Fin w) ExactNumber) (swaps : Nat),
        (numberArray a).implicitReduce (cols.map .int) inPlace = .ok (rowLists (s.map value)) ∧
        (numberArray a).explicitReduce (cols.map .int) inPlace =
          .ok (rowLists (r.map value), swaps) ∧
        (array (a.map rat)).implicitReduce (cols.map .int) inPlace =
          .ok (rowLists ((s.map rat).map .fraction)) ∧
        (array (a.map rat)).explicitReduce (cols.map .int) inPlace =
          .ok (rowLists ((r.map rat).map .fraction), swaps)) := by
  refine ⟨fun _ => implicitReduce_floatFree_iff a cols inPlace,
    fun _ _ => explicitReduce_floatFree_iff a cols inPlace, fun hlone => ?_⟩
  have hlimit : pivotLimit cols w ≤ (Grid.ofMatrix a).width := pivotLimit_le cols w
  obtain ⟨s, e, swaps, hs, he, himplicit, hexplicit⟩ := hlone.exists_passes hlimit
  obtain ⟨hsheight, hswidth⟩ := shape_of_implicit hlimit hs
  obtain ⟨heheight, hewidth⟩ := shape_of_explicit hlimit he
  have hsheight : s.grid.height = h := hsheight.trans (Grid.height_ofMatrix a)
  have heheight : e.height = h := heheight.trans (Grid.height_ofMatrix a)
  have hswidth : s.grid.width = w := hswidth
  have hewidth : e.width = w := hewidth
  have hwork := workspace_ofMatrix (a.map rat) Value.fraction inPlace
  rw [Grid.ofMatrix_map] at hwork
  refine ⟨s.grid.matrix h w, e.matrix h w, swaps,
    ((implicitReduce_floatFree_iff a cols inPlace).2 ⟨s, hs, rfl⟩).1,
    ((explicitReduce_floatFree_iff a cols inPlace).2 ⟨e, he, rfl⟩).1, ?_, ?_⟩
  · rw [← Grid.matrix_map hsheight hswidth,
      ← Grid.toLists_map (g := s.grid.map rat) (by simpa using hsheight) hswidth]
    exact implicitReduce_of_workspace cols hwork himplicit
  · rw [← Grid.matrix_map heheight hewidth,
      ← Grid.toLists_map (g := e.map rat) (by simpa using heheight) hewidth]
    exact explicitReduce_of_workspace cols hwork hexplicit

/-- No column has two integers other than zero, though most have an integer. -/
theorem reduce_exactly_mixed :
    let a : Matrix (Fin 3) (Fin 3) ExactNumber :=
      !![.int 0, .fraction (1 / 2), .int 3; .int 4, .fraction 3, .fraction (-1);
        .fraction 2, .int 5, .int 0]
    LoneIntegers (Grid.ofMatrix a) (pivotLimit none 3) ∧
      ∃ (s r : Matrix (Fin 3) (Fin 3) ExactNumber) (swaps : Nat),
        (numberArray a).implicitReduce none true = .ok (rowLists (s.map value)) ∧
        (numberArray a).explicitReduce none true = .ok (rowLists (r.map value), swaps) ∧
        (array (a.map rat)).implicitReduce none true =
          .ok (rowLists ((s.map rat).map .fraction)) ∧
        (array (a.map rat)).explicitReduce none true =
          .ok (rowLists ((r.map rat).map .fraction), swaps) := by
  intro a
  have hlone : LoneIntegers (Grid.ofMatrix a) (pivotLimit none 3) := by
    unfold LoneIntegers
    decide +kernel
  exact ⟨hlone, (reduce_exactly_iff a none true).2.2 hlone⟩

/-- The quotient of one and two is rounded, and that of a large number and one has no double. -/
theorem integers_rounded :
    let a : Matrix (Fin 2) (Fin 2) ExactNumber := !![.int 2, .int 1; .int 1, .int 1]
    let b : Matrix (Fin 2) (Fin 1) ExactNumber := !![.int 1; .int (10 ^ 400)]
    (¬∃ rows, (numberArray a).implicitReduce none false = .ok rows ∧ FloatFree rows) ∧
      (numberArray b).implicitReduce none false = .error (.arithmetic .overflow) := by
  intro a b
  constructor
  · rintro ⟨rows, hrows⟩
    obtain ⟨s, hs, -⟩ := (implicitReduce_floatFree_iff a none false).1 hrows
    have hrefused :
        (implicit (m := Except Refused) (Grid.ofMatrix a) (pivotLimit none 2)).isOk = false := by
      decide +kernel
    rw [hs] at hrefused
    cases hrefused
  · have hfault : ((numberArray b).implicitReduce none false).map (fun _ => ()) =
        .error (.arithmetic .overflow) := by decide +kernel
    cases hrun : (numberArray b).implicitReduce none false with
    | ok rows =>
      rw [hrun] at hfault
      cases hfault
    | error fault =>
      rw [hrun] at hfault
      exact congrArg Except.error (Except.error.inj hfault)

end MatrixSource

end TwoPhase
