import TwoPhase.Cell
import TwoPhase.Matrix.Cofactor
import TwoPhase.Proofs.Clearing

/-!
Columns beyond the limit. Whole rows are cleared and swapped, but pivots, factors and swaps depend
on the first `k` columns only, so each further column goes its own way beside them. Nothing is
assumed of the arithmetic. Where it may fail, the run on all columns returns exactly if the runs on
the first `k` columns and any single further one do.
-/
namespace TwoPhase

namespace Grid

variable {α : Type} [Zero α] {g : Grid α} {js : List Nat}

def columns (g : Grid α) (js : List Nat) : Grid α :=
  ofFn g.height js.length fun i j => g.cell i (js[j]?.getD 0)

def leading (g : Grid α) (k : Nat) : Grid α := g.columns (List.range k)

def leadingWith (g : Grid α) (k j : Nat) : Grid α := g.columns (List.range k ++ [j])

@[simp] theorem height_columns (g : Grid α) (js : List Nat) : (g.columns js).height = g.height :=
  height_ofFn ..

@[simp] theorem width_columns (g : Grid α) (js : List Nat) : (g.columns js).width = js.length := rfl

theorem cell_columns {i j l : Nat} (hi : i < g.height) (hl : js[l]? = some j) :
    (g.columns js).cell i l = g.cell i j := by
  obtain ⟨hlt, -⟩ := List.getElem?_eq_some_iff.1 hl
  rw [columns, cell_ofFn _ _ _ hi hlt, hl, Option.getD_some]

end Grid

namespace Reduction

open Arithmetic

variable {ε α : Type} [Zero α] [Arithmetic (Except ε) α] {g : Grid α} {js : List Nat} {w k : Nat}

/-- The first `k` columns stand in their places, and no other column is invented. -/
structure KeepsLeading (js : List Nat) (k w : Nat) : Prop where
  getElem? {c : Nat} (hc : c < k) : js[c]? = some c
  lt {l j : Nat} (hl : js[l]? = some j) : j < w

theorem keepsLeading_range (hk : k ≤ w) : KeepsLeading (List.range k) k w where
  getElem? hc := List.getElem?_range hc
  lt {l j} hl := by
    obtain ⟨hlt, rfl⟩ := List.getElem?_eq_some_iff.1 hl
    rw [List.length_range] at hlt
    rw [List.getElem_range]
    exact hlt.trans_le hk

theorem keepsLeading_append (hk : k ≤ w) {j : Nat} (hj : j < w) :
    KeepsLeading (List.range k ++ [j]) k w where
  getElem? {c} hc := by
    rw [List.getElem?_append_left (by simpa using hc)]
    exact List.getElem?_range hc
  lt {l i} hl := by
    rcases List.mem_append.1 (List.mem_of_getElem? hl) with hi | hi
    · exact (List.mem_range.1 hi).trans_le hk
    · exact List.mem_singleton.1 hi ▸ hj

theorem KeepsLeading.swapRows_columns (h : KeepsLeading js k w) (hw : g.width = w) {r s : Nat}
    (hr : r < g.height) (hs : s < g.height) :
    swapRows (g.columns js) r s = (swapRows g r s).columns js := by
  have hheight : (swapRows g r s).height = g.height := Grid.height_ofFn ..
  rw [swapRows, Grid.height_columns, Grid.width_columns]
  refine (Grid.ofFn_congr fun i hi l hl => ?_).trans (congrArg (Grid.ofFn · _ _) hheight.symm)
  have hj : js[l]? = some js[l] := List.getElem?_eq_getElem hl
  have hrow : (if i = r then s else if i = s then r else i) < g.height := by
    split_ifs <;> assumption
  rw [Grid.cell_columns hrow hj, hj, Option.getD_some, swapRows,
    Grid.cell_ofFn _ _ _ hi (hw ▸ h.lt hj)]

theorem KeepsLeading.sameZeros (h : KeepsLeading js k w) :
    SameZeros (Except ε) (Except ε) (fun g : Grid α => g.columns js) w k where
  height g := g.height_columns js
  isZero _ _ _ hi hc := by rw [Grid.cell_columns hi (h.getElem? hc)]
  swapRows hw _ _ hr hs := h.swapRows_columns hw hr hs

theorem KeepsLeading.clearedCell_eq (h : KeepsLeading js k w) {r c i j l : Nat} (hr : r < g.height)
    (hc : c < k) (hi : i < g.height) (hl : js[l]? = some j) :
    clearedCell (Except ε) (g.columns js) r c i l = clearedCell (Except ε) g r c i j := by
  rw [clearedCell, clearedCell, Grid.cell_columns hi hl, Grid.cell_columns hr hl,
    Grid.cell_columns hi (h.getElem? hc), Grid.cell_columns hr (h.getElem? hc)]

theorem KeepsLeading.clearsView (h : KeepsLeading js k w) (hk : k ≤ w) :
    ClearsView ε ε (fun g : Grid α => g.columns js) w k := by
  intro g g' r c hw hr hc hclear
  obtain ⟨hheight, hwidth, hcells⟩ :=
    (clearColumn_eq_ok_iff (hw ▸ hc.trans_le hk)).1 hclear
  have hlead := List.getElem?_eq_some_iff.1 (h.getElem? hc)
  refine (clearColumn_eq_ok_iff hlead.1).2 ⟨by simp [hheight], rfl, fun i hi l hl => ?_⟩
  rw [Grid.height_columns] at hi
  have hj : js[l]? = some js[l] := List.getElem?_eq_getElem hl
  rw [h.clearedCell_eq hr hc hi hj, Grid.cell_columns (hheight ▸ hi) hj]
  exact hcells i hi _ (hw ▸ h.lt hj)

variable {pivots : List (Nat × Nat)} {cols : List Nat} {r c : Nat}

theorem KeepsLeading.pivotRow?_columns (h : KeepsLeading js k w) (hw : g.width = w) (hc : c < k) :
    pivotRow? (Except ε) (g.columns js) c (freeRows g.height pivots) =
      pivotRow? (Except ε) g c (freeRows g.height pivots) :=
  h.sameZeros.pivotRow?_eq hw hc fun _ hi => (mem_freeRows.1 hi).1

/-- Where the whole clears a column, a part that returns has cleared it too. -/
theorem KeepsLeading.exists_step (h : KeepsLeading js k w) (hw : g.width = w) (hc : c < k)
    (hopen : pivots.length ≠ g.height)
    (hrow : pivotRow? (Except ε) g c (freeRows g.height pivots) = some r) {s : Implicit α}
    (hs : reduceAlong (m := Except ε) (g.columns js) pivots (c :: cols) = .ok s) :
    ∃ part, clearColumn (m := Except ε) (g.columns js) r c = .ok part ∧
      reduceAlong (m := Except ε) part (pivots ++ [(r, c)]) cols = .ok s := by
  rw [reduceAlong_cons, Grid.height_columns, if_neg hopen, h.pivotRow?_columns hw hc, hrow] at hs
  exact bind_eq_ok.1 hs

theorem exists_clearColumn_of_parts {parts : List (List Nat)} (hk : k ≤ w)
    (hparts : ∀ js ∈ parts, KeepsLeading js k w) (hcover : ∀ j < w, ∃ js ∈ parts, j ∈ js)
    (hw : g.width = w) (hr : r < g.height) (hc : c < k)
    (hclear : ∀ js ∈ parts, ∃ part, clearColumn (m := Except ε) (g.columns js) r c = .ok part) :
    ∃ g', clearColumn (m := Except ε) g r c = .ok g' := by
  refine exists_clearColumn (hw ▸ hc.trans_le hk) fun i hi j hj => ?_
  obtain ⟨js, hjs, hmem⟩ := hcover j (hw ▸ hj)
  obtain ⟨l, hl⟩ := List.getElem?_of_mem hmem
  obtain ⟨part, hpart⟩ := hclear js hjs
  have hlt := (List.getElem?_eq_some_iff.1 ((hparts js hjs).getElem? hc)).1
  have hcell := ((clearColumn_eq_ok_iff hlt).1 hpart).2.2 i (by simpa using hi) l
    (List.getElem?_eq_some_iff.1 hl).1
  rw [(hparts js hjs).clearedCell_eq hr hc hi hl] at hcell
  exact ⟨_, hcell⟩

/-- Runs on parts that together have all columns make a run on the whole. -/
theorem Pass.exists_of_parts {x : Except ε (Implicit α)} (parts : List (List Nat)) (hk : k ≤ w)
    (hparts : ∀ js ∈ parts, KeepsLeading js k w) (hcover : ∀ j < w, ∃ js ∈ parts, j ∈ js)
    (hpass : Pass ε g pivots cols x) (hw : g.width = w) (hcols : ∀ c ∈ cols, c < k)
    (hruns : ∀ js ∈ parts,
      ∃ s, reduceAlong (m := Except ε) (g.columns js) pivots cols = .ok s) :
    ∃ s, x = .ok s := by
  induction hpass with
  | done => exact ⟨_, rfl⟩
  | full => exact ⟨_, rfl⟩
  | @skip g _ c _ _ hopen hrow _ ih =>
    refine ih hw (fun c' hc' => hcols c' (List.mem_cons_of_mem c hc')) fun js hjs => ?_
    obtain ⟨s, hs⟩ := hruns js hjs
    rw [reduceAlong_cons, Grid.height_columns, if_neg hopen,
      (hparts js hjs).pivotRow?_columns hw (hcols c List.mem_cons_self), hrow] at hs
    exact ⟨s, hs⟩
  | @fail g _ c _ _ _ hopen hrow hclear =>
    have hc := hcols c List.mem_cons_self
    obtain ⟨g', hg'⟩ := exists_clearColumn_of_parts hk hparts hcover hw (lt_of_pivotRow? hrow) hc
      fun js hjs => by
        obtain ⟨s, hs⟩ := hruns js hjs
        obtain ⟨part, hpart, -⟩ := (hparts js hjs).exists_step hw hc hopen hrow hs
        exact ⟨part, hpart⟩
    rw [hg'] at hclear
    cases hclear
  | @clear g g' _ c _ _ _ hopen hrow hclear _ ih =>
    have hc := hcols c List.mem_cons_self
    have hwidth := ((clearColumn_eq_ok_iff (hw ▸ hc.trans_le hk)).1 hclear).2.1
    refine ih (hwidth.trans hw) (fun c' hc' => hcols c' (List.mem_cons_of_mem c hc'))
      fun js hjs => ?_
    obtain ⟨s, hs⟩ := hruns js hjs
    obtain ⟨part, hpart, hs⟩ := (hparts js hjs).exists_step hw hc hopen hrow hs
    have hview := (hparts js hjs).clearsView hk hw (lt_of_pivotRow? hrow) hc hclear
    obtain rfl := Except.ok.inj (hpart.symm.trans hview)
    exact ⟨s, hs⟩

theorem exists_implicit_of_parts {k : Nat} (hk : k ≤ g.width)
    (hleading : ∃ s, implicit (m := Except ε) (g.leading k) k = .ok s)
    (hparts : ∀ j, k ≤ j → j < g.width →
      ∃ s, implicit (m := Except ε) (g.leadingWith k j) k = .ok s) :
    ∃ s, implicit (m := Except ε) g k = .ok s := by
  let further := (List.range' k (g.width - k)).map fun j => List.range k ++ [j]
  have hfurther : ∀ js ∈ further, ∃ j, k ≤ j ∧ j < g.width ∧ List.range k ++ [j] = js := by
    intro js hjs
    obtain ⟨j, hj, rfl⟩ := List.mem_map.1 hjs
    rw [List.mem_range'_1] at hj
    exact ⟨j, hj.1, by omega, rfl⟩
  refine Pass.exists_of_parts (List.range k :: further) hk ?_ ?_ (pass_reduceAlong ..) rfl
    (fun _ hc => List.mem_range.1 hc) ?_
  · intro js hjs
    rcases List.mem_cons.1 hjs with rfl | hjs
    · exact keepsLeading_range hk
    · obtain ⟨j, -, hj, rfl⟩ := hfurther js hjs
      exact keepsLeading_append hk hj
  · intro j hj
    by_cases hjk : j < k
    · exact ⟨_, List.mem_cons_self, List.mem_range.2 hjk⟩
    · refine ⟨List.range k ++ [j], List.mem_cons_of_mem _ (List.mem_map_of_mem ?_), by simp⟩
      rw [List.mem_range'_1]
      omega
  · intro js hjs
    rcases List.mem_cons.1 hjs with rfl | hjs
    · exact hleading
    · obtain ⟨j, hkj, hj, rfl⟩ := hfurther js hjs
      exact hparts j hkj hj

theorem exists_implicit_iff_explicit {k : Nat} :
    (∃ s, implicit (m := Except ε) g k = .ok s) ↔
      ∃ e swaps, explicit (m := Except ε) g k = .ok (e, swaps) := by
  constructor
  · rintro ⟨s, hs⟩
    exact ⟨_, _, explicit_eq_ok_iff.2 ⟨s, hs, rfl⟩⟩
  · rintro ⟨e, swaps, he⟩
    obtain ⟨s, hs, -⟩ := explicit_eq_ok_iff.1 he
    exact ⟨s, hs⟩

/-- The arithmetic returns whatever it is applied to, as that of doubles does. -/
def Total (ε α : Type) [Arithmetic (Except ε) α] : Prop :=
  ∀ a b : α, (∃ x, sub a b = (.ok x : Except ε α)) ∧ (∃ x, mul a b = (.ok x : Except ε α)) ∧
    ∃ x, div a b = (.ok x : Except ε α)

theorem Total.exists_clearedCell (h : Total ε α) (g : Grid α) (r c i j : Nat) :
    ∃ v, clearedCell (Except ε) g r c i j = .ok v := by
  rw [clearedCell]
  by_cases hir : i = r
  · exact ⟨_, if_pos hir⟩
  rw [if_neg hir]
  obtain ⟨factor, hfactor⟩ := (h (g.cell i c) (g.cell r c)).2.2
  obtain ⟨product, hproduct⟩ := (h factor (g.cell r j)).2.1
  obtain ⟨difference, hdifference⟩ := (h (g.cell i j) product).1
  by_cases hzero : isZero (Except ε) factor = true
  · exact ⟨g.cell i j, bind_eq_ok.2 ⟨factor, hfactor, if_pos hzero⟩⟩
  · refine ⟨difference, bind_eq_ok.2 ⟨factor, hfactor, ?_⟩⟩
    rw [if_neg hzero]
    exact bind_eq_ok.2 ⟨product, hproduct, hdifference⟩

theorem Total.exists_of_pass (h : Total ε α) {pivots : List (Nat × Nat)} {cols : List Nat}
    {x : Except ε (Implicit α)} (hpass : Pass ε g pivots cols x) (hcols : ∀ c ∈ cols, c < g.width) :
    ∃ s, x = .ok s := by
  induction hpass with
  | done => exact ⟨_, rfl⟩
  | full => exact ⟨_, rfl⟩
  | skip _ _ _ ih => exact ih fun c' hc' => hcols c' (List.mem_cons_of_mem _ hc')
  | fail _ _ hclear =>
    obtain ⟨k, hk⟩ := exists_clearColumn (hcols _ List.mem_cons_self) fun i _ j _ =>
      h.exists_clearedCell _ _ _ i j
    rw [hk] at hclear
    cases hclear
  | clear _ _ hk _ ih =>
    have hwidth := ((clearColumn_eq_ok_iff (hcols _ List.mem_cons_self)).1 hk).2.1
    exact ih fun c' hc' => hwidth.symm ▸ hcols c' (List.mem_cons_of_mem _ hc')

/-- Along the first `k` columns both passes treat each further column as if it stood alone behind
them, with the same pivots and swaps; and they return where they do so on all these parts. -/
theorem reduce_columns (g : Grid α) {k : Nat} (hk : k ≤ g.width) :
    (∀ s, implicit (m := Except ε) g k = .ok s →
      s.grid.height = g.height ∧ s.grid.width = g.width ∧
      implicit (m := Except ε) (g.leading k) k = .ok ⟨s.grid.leading k, s.pivots⟩ ∧
      ∀ j, k ≤ j → j < g.width → implicit (m := Except ε) (g.leadingWith k j) k =
        .ok ⟨s.grid.leadingWith k j, s.pivots⟩) ∧
    (∀ e swaps, explicit (m := Except ε) g k = .ok (e, swaps) →
      e.height = g.height ∧ e.width = g.width ∧
      explicit (m := Except ε) (g.leading k) k = .ok (e.leading k, swaps) ∧
      ∀ j, k ≤ j → j < g.width → explicit (m := Except ε) (g.leadingWith k j) k =
        .ok (e.leadingWith k j, swaps)) ∧
    ((∃ s, implicit (m := Except ε) g k = .ok s) ↔
      (∃ s, implicit (m := Except ε) (g.leading k) k = .ok s) ∧
      ∀ j, k ≤ j → j < g.width →
        ∃ s, implicit (m := Except ε) (g.leadingWith k j) k = .ok s) ∧
    ((∃ s, implicit (m := Except ε) g k = .ok s) ↔
      ∃ e swaps, explicit (m := Except ε) g k = .ok (e, swaps)) ∧
    (Total ε α → ∃ s, implicit (m := Except ε) g k = .ok s) := by
  have hlead := keepsLeading_range hk
  have hwith : ∀ j, j < g.width → KeepsLeading (List.range k ++ [j]) k g.width := fun j hj =>
    keepsLeading_append hk hj
  have hfirst : ∀ s, implicit (m := Except ε) g k = .ok s →
      implicit (m := Except ε) (g.leading k) k = .ok ⟨s.grid.leading k, s.pivots⟩ ∧
      ∀ j, k ≤ j → j < g.width → implicit (m := Except ε) (g.leadingWith k j) k =
        .ok ⟨s.grid.leadingWith k j, s.pivots⟩ := fun s hs =>
    ⟨hlead.sameZeros.implicit_eq (hlead.clearsView hk) hk rfl hs,
      fun j _ hj => (hwith j hj).sameZeros.implicit_eq ((hwith j hj).clearsView hk) hk rfl hs⟩
  refine ⟨fun s hs => ?_, fun e swaps he => ?_, ⟨?_, ?_⟩, ?_, fun htotal => ?_⟩
  · obtain ⟨hheight, hwidth⟩ := shape_of_implicit hk hs
    exact ⟨hheight, hwidth, hfirst s hs⟩
  · obtain ⟨hheight, hwidth⟩ := shape_of_explicit hk he
    exact ⟨hheight, hwidth, hlead.sameZeros.explicit_eq (hlead.clearsView hk) hk rfl he,
      fun j _ hj => (hwith j hj).sameZeros.explicit_eq ((hwith j hj).clearsView hk) hk rfl he⟩
  · rintro ⟨s, hs⟩
    obtain ⟨hleading, hparts⟩ := hfirst s hs
    exact ⟨⟨_, hleading⟩, fun j hkj hj => ⟨_, hparts j hkj hj⟩⟩
  · rintro ⟨hleading, hparts⟩
    exact exists_implicit_of_parts hk hleading hparts
  · exact exists_implicit_iff_explicit
  · exact htotal.exists_of_pass (pass_reduceAlong ..) fun c hc => (List.mem_range.1 hc).trans_le hk

/-- The pivot of the only column stands in the second row, so one swap follows. -/
theorem reduce_columns_one :
    let cells (rows : List (List Rat)) : Grid Value :=
      (Grid.ofFn 3 3 (Cofactor.entry rows)).map .fraction
    let g := cells [[0, 1, 2], [2, 4, 6], [1, 0, 1]]
    let e := cells [[2, 4, 6], [0, 1, 2], [0, -2, -2]]
    1 ≤ 3 ∧ explicit (m := Except ArithmeticFault) g 1 = .ok (e, 1) ∧
      explicit (m := Except ArithmeticFault) (g.leading 1) 1 = .ok (e.leading 1, 1) ∧
      explicit (m := Except ArithmeticFault) (g.leadingWith 1 2) 1 =
        .ok (e.leadingWith 1 2, 1) := by
  intro cells g e
  have hk : 1 ≤ 3 := by decide
  have hrun : explicit (m := Except ArithmeticFault) g 1 = .ok (e, 1) := by with_unfolding_all rfl
  obtain ⟨-, -, hleading, hparts⟩ :=
    (reduce_columns g hk).2.1 e 1 hrun
  exact ⟨hk, hrun, hleading, hparts 2 (by decide) (by decide)⟩

end Reduction

end TwoPhase
