import Mathlib.Tactic.Choose
import TwoPhase.Proofs.Views

/-!
One clearing, cell by cell. A row is cleared as a whole: its factor is taken once, then come all
products and then all differences. Still the clearing returns exactly if each of its cells can be
computed, and then the grid of these cells. Nothing is assumed of the arithmetic, which may fail.
-/
namespace TwoPhase

namespace Grid

variable {α : Type} [Zero α]

@[simp] theorem length_row (g : Grid α) (i : Nat) : (g.row i).length = g.width := by simp [row]

@[simp] theorem getElem_row (g : Grid α) (i : Nat) {j : Nat} (hj : j < (g.row i).length) :
    (g.row i)[j] = g.cell i j := by simp [row]

end Grid

namespace Reduction

open Arithmetic

variable {ε α : Type} [Zero α] [Arithmetic (Except ε) α] {g k : Grid α} {r c i : Nat}

def clearedCell (m : Type → Type) [Monad m] [Arithmetic m α] (g : Grid α) (r c i j : Nat) : m α :=
  if i = r then return g.cell i j
  else do
    let factor ← div (m := m) (g.cell i c) (g.cell r c)
    if isZero m factor then return g.cell i j
    else
      let product ← mul (m := m) factor (g.cell r j)
      sub (g.cell i j) product

theorem differences_eq_ok_iff {factor : α} {row : List α} :
    ((g.row r).mapM (mul (m := Except ε) factor) >>= fun products =>
        ((g.row i).zip products).mapM fun (a, b) => sub (m := Except ε) a b) = .ok row ↔
      row.length = g.width ∧ ∀ j, ∀ hj : j < row.length,
        (mul (m := Except ε) factor (g.cell r j) >>= fun product => sub (g.cell i j) product) =
          .ok row[j] := by
  constructor
  · intro h
    obtain ⟨products, hproducts, hrow⟩ := bind_eq_ok.1 h
    obtain ⟨hlength, hmul⟩ := mapM_eq_ok_iff.1 hproducts
    obtain ⟨hlength', hsub⟩ := mapM_eq_ok_iff.1 hrow
    rw [Grid.length_row] at hlength
    rw [List.length_zip, Grid.length_row, hlength, Nat.min_self] at hlength'
    refine ⟨hlength', fun j hj => bind_eq_ok.2 ⟨products[j], ?_, ?_⟩⟩
    · have hproduct := hmul j (by simp; omega) (by omega)
      rwa [Grid.getElem_row] at hproduct
    · have hdifference := hsub j (by simp; omega) hj
      rwa [List.getElem_zip, Grid.getElem_row] at hdifference
  · rintro ⟨hlength, hcells⟩
    have hmul : ∀ b ∈ g.row r, ∃ product, mul (m := Except ε) factor b = .ok product := by
      intro b hb
      obtain ⟨j, hj, rfl⟩ := List.getElem_of_mem hb
      rw [Grid.length_row] at hj
      obtain ⟨product, hproduct, -⟩ := bind_eq_ok.1 (hcells j (hlength ▸ hj))
      exact ⟨product, by rwa [Grid.getElem_row]⟩
    obtain ⟨products, hproducts⟩ := exists_mapM_eq_ok hmul
    obtain ⟨hlength', hmul⟩ := mapM_eq_ok_iff.1 hproducts
    rw [Grid.length_row] at hlength'
    refine bind_eq_ok.2 ⟨products, hproducts, mapM_eq_ok_iff.2 ⟨by simp [hlength, hlength'], ?_⟩⟩
    intro j hj hj'
    obtain ⟨product, hproduct, hdifference⟩ := bind_eq_ok.1 (hcells j hj')
    have hsame := hmul j (by simp; omega) (by omega)
    rw [Grid.getElem_row, hproduct] at hsame
    obtain rfl := Except.ok.inj hsame
    rwa [List.getElem_zip, Grid.getElem_row]

omit [Arithmetic (Except ε) α] in
theorem row_eq_ok_iff {row : List α} :
    (.ok (g.row i) : Except ε (List α)) = .ok row ↔
      row.length = g.width ∧
        ∀ j, ∀ hj : j < row.length, (.ok (g.cell i j) : Except ε α) = .ok row[j] := by
  constructor
  · intro h
    obtain rfl : g.row i = row := Except.ok.inj h
    exact ⟨Grid.length_row g i, fun j hj => congrArg Except.ok (Grid.getElem_row g i hj).symm⟩
  · rintro ⟨hlength, hcells⟩
    refine congrArg Except.ok (List.ext_getElem (by simp [hlength]) fun j hj hj' => ?_)
    rw [Grid.getElem_row]
    exact Except.ok.inj (hcells j hj')

theorem clearedRow_eq_ok_iff (hc : c < g.width) (hir : i ≠ r) {row : List α} :
    clearedRow (m := Except ε) g r c i = .ok row ↔
      row.length = g.width ∧
        ∀ j, ∀ hj : j < row.length, clearedCell (Except ε) g r c i j = .ok row[j] := by
  simp only [clearedRow, clearedCell, if_neg hir]
  cases hfactor : div (m := Except ε) (g.cell i c) (g.cell r c) with
  | error e =>
    constructor
    · intro h
      cases h
    · rintro ⟨hlength, hcells⟩
      cases hcells c (hlength ▸ hc)
  | ok factor =>
    by_cases hzero : isZero (Except ε) factor = true
    · simp only [bind, Except.bind, hzero, if_true]
      exact row_eq_ok_iff
    · simp only [bind, Except.bind, hzero]
      exact differences_eq_ok_iff

theorem clearColumn_eq_ok_iff (hc : c < g.width) :
    clearColumn (m := Except ε) g r c = .ok k ↔
      k.height = g.height ∧ k.width = g.width ∧
        ∀ i < g.height, ∀ j < g.width, clearedCell (Except ε) g r c i j = .ok (k.cell i j) := by
  have hrow : ∀ (i : Nat) (row : List α),
      (if i = r then pure (g.row i) else clearedRow (m := Except ε) g r c i) = .ok row ↔
        row.length = g.width ∧
          ∀ j, ∀ hj : j < row.length, clearedCell (Except ε) g r c i j = .ok row[j] := by
    intro i row
    by_cases hir : i = r
    · simp only [clearedCell, if_pos hir]
      exact row_eq_ok_iff
    · rw [if_neg hir]
      exact clearedRow_eq_ok_iff hc hir
  constructor
  · intro h
    obtain ⟨rows, hrows, h⟩ := bind_eq_ok.1 h
    obtain ⟨hlength, hrows⟩ := mapM_eq_ok_iff.1 hrows
    obtain rfl := Except.ok.inj h
    rw [List.length_range] at hlength
    refine ⟨Grid.height_ofFn .., rfl, fun i hi j hj => ?_⟩
    have hi' : i < rows.length := hlength ▸ hi
    have hcells := hrows i (by simpa using hi) hi'
    rw [List.getElem_range] at hcells
    obtain ⟨hwidth, hcells⟩ := (hrow i _).1 hcells
    have hj' : j < rows[i].length := hwidth ▸ hj
    rw [hcells j hj', Grid.cell_ofFn _ _ _ hi hj]
    simp [hi', hj']
  · rintro ⟨hheight, hwidth, hcells⟩
    have hrows : ∀ i ∈ List.range g.height,
        (if i = r then pure (g.row i) else clearedRow (m := Except ε) g r c i) =
          .ok ((List.range g.width).map (k.cell i)) := by
      intro i hi
      refine (hrow i _).2 ⟨by simp, fun j hj => ?_⟩
      rw [hcells i (List.mem_range.1 hi) j (by simpa using hj)]
      simp
    rw [clearColumn, mapM_eq_ok hrows]
    refine congrArg Except.ok ?_
    rw [Grid.ofFn_rows, ← hheight, ← hwidth, Grid.ofFn_cell]

theorem exists_clearColumn (hc : c < g.width)
    (h : ∀ i < g.height, ∀ j < g.width, ∃ v, clearedCell (Except ε) g r c i j = .ok v) :
    ∃ k, clearColumn (m := Except ε) g r c = .ok k := by
  have : Nonempty α := ⟨0⟩
  choose! v hv using h
  refine ⟨Grid.ofFn g.height g.width v, (clearColumn_eq_ok_iff hc).2
    ⟨Grid.height_ofFn .., rfl, fun i hi j hj => ?_⟩⟩
  rw [hv i hi j hj, Grid.cell_ofFn _ _ _ hi hj]

theorem lt_of_pivotRow? {m : Type → Type} {β : Type} [Zero β] [Arithmetic m β] {g : Grid β}
    {pivots : List (Nat × Nat)} {c r : Nat}
    (h : pivotRow? m g c (freeRows g.height pivots) = some r) : r < g.height :=
  (mem_freeRows.1 (List.mem_of_find?_eq_some h)).1

inductive Pass (ε : Type) {α : Type} [Zero α] [Arithmetic (Except ε) α] :
    Grid α → List (Nat × Nat) → List Nat → Except ε (Implicit α) → Prop where
  | done (g : Grid α) (pivots : List (Nat × Nat)) : Pass ε g pivots [] (.ok ⟨g, pivots⟩)
  | full {g : Grid α} {pivots : List (Nat × Nat)} (c : Nat) (cols : List Nat)
      (hfull : pivots.length = g.height) : Pass ε g pivots (c :: cols) (.ok ⟨g, pivots⟩)
  | skip {g : Grid α} {pivots : List (Nat × Nat)} {c : Nat} {cols : List Nat}
      {x : Except ε (Implicit α)} (hopen : pivots.length ≠ g.height)
      (hrow : pivotRow? (Except ε) g c (freeRows g.height pivots) = none)
      (rest : Pass ε g pivots cols x) : Pass ε g pivots (c :: cols) x
  | fail {g : Grid α} {pivots : List (Nat × Nat)} {c r : Nat} {cols : List Nat} {fault : ε}
      (hopen : pivots.length ≠ g.height)
      (hrow : pivotRow? (Except ε) g c (freeRows g.height pivots) = some r)
      (hclear : clearColumn (m := Except ε) g r c = .error fault) :
      Pass ε g pivots (c :: cols) (.error fault)
  | clear {g k : Grid α} {pivots : List (Nat × Nat)} {c r : Nat} {cols : List Nat}
      {x : Except ε (Implicit α)} (hopen : pivots.length ≠ g.height)
      (hrow : pivotRow? (Except ε) g c (freeRows g.height pivots) = some r)
      (hclear : clearColumn (m := Except ε) g r c = .ok k)
      (rest : Pass ε k (pivots ++ [(r, c)]) cols x) : Pass ε g pivots (c :: cols) x

variable {pivots : List (Nat × Nat)} {cols : List Nat} {x : Except ε (Implicit α)}

theorem pass_reduceAlong (g : Grid α) (pivots : List (Nat × Nat)) (cols : List Nat) :
    Pass ε g pivots cols (reduceAlong g pivots cols) := by
  induction cols generalizing g pivots with
  | nil => exact .done g pivots
  | cons c cols ih =>
    rw [reduceAlong_cons]
    by_cases hfull : pivots.length = g.height
    · rw [if_pos hfull]
      exact .full c cols hfull
    rw [if_neg hfull]
    cases hrow : pivotRow? (Except ε) g c (freeRows g.height pivots) with
    | none => exact .skip hfull hrow (ih g pivots)
    | some r =>
      dsimp only
      cases hclear : clearColumn (m := Except ε) g r c with
      | error fault => exact .fail hfull hrow hclear
      | ok k => exact .clear hfull hrow hclear (ih k _)

theorem Pass.eq (h : Pass ε g pivots cols x) : reduceAlong g pivots cols = x := by
  induction h with
  | done => rfl
  | full _ _ hfull =>
    rw [reduceAlong_cons, if_pos hfull]
    rfl
  | skip hopen hrow _ ih => rw [reduceAlong_cons, if_neg hopen, hrow, ih]
  | fail hopen hrow hclear =>
    rw [reduceAlong_cons, if_neg hopen, hrow]
    dsimp only
    rw [hclear]
    rfl
  | clear hopen hrow hclear _ ih =>
    rw [reduceAlong_cons, if_neg hopen, hrow]
    dsimp only
    rw [hclear]
    exact ih

theorem pass_iff : Pass ε g pivots cols x ↔ reduceAlong g pivots cols = x :=
  ⟨Pass.eq, fun h => h ▸ pass_reduceAlong g pivots cols⟩

/-- What each clearing keeps, the first pass keeps. -/
theorem Pass.keeps {p : Grid α → Prop} (h : Pass ε g pivots cols x)
    (hclear : ∀ {g k : Grid α} {r c : Nat}, r < g.height → c < g.width →
      clearColumn (m := Except ε) g r c = .ok k → p g → p k)
    (hcols : ∀ c ∈ cols, c < g.width) {s : Implicit α} (hs : x = .ok s) (hg : p g) : p s.grid := by
  induction h with
  | done =>
    cases hs
    exact hg
  | full =>
    cases hs
    exact hg
  | skip _ _ _ ih => exact ih (fun c' hc' => hcols c' (List.mem_cons_of_mem _ hc')) hs hg
  | fail => cases hs
  | clear _ hrow hk _ ih =>
    have hc := hcols _ List.mem_cons_self
    have hwidth := ((clearColumn_eq_ok_iff hc).1 hk).2.1
    exact ih (fun c' hc' => hwidth.symm ▸ hcols c' (List.mem_cons_of_mem _ hc')) hs
      (hclear (lt_of_pivotRow? hrow) hc hk hg)

/-- What each swap keeps, the second pass keeps. -/
theorem keeps_echelonAlong {m : Type → Type} {β : Type} [Zero β] [Arithmetic m β]
    {p : Grid β → Prop}
    (hswap : ∀ {g : Grid β} {r s : Nat}, r < g.height → s < g.height → p g → p (swapRows g r s))
    {g : Grid β} (t swaps : Nat) (cols : List Nat) (hg : p g) :
    p (echelonAlong m g t swaps cols).1 := by
  induction cols generalizing g t swaps with
  | nil => exact hg
  | cons c cols ih =>
    rw [echelonAlong]
    by_cases hfull : g.height ≤ t
    · rw [if_pos hfull]
      exact hg
    rw [if_neg hfull]
    cases hrow : pivotRow? m g c ((List.range g.height).drop t) with
    | none => exact ih t swaps hg
    | some row =>
      dsimp only
      have hlt : row < g.height :=
        List.mem_range.1 (List.mem_of_mem_drop (List.mem_of_find?_eq_some hrow))
      by_cases htarget : row = t
      · rw [if_pos htarget]
        exact ih (t + 1) swaps hg
      · rw [if_neg htarget]
        exact ih (t + 1) (swaps + 1) (hswap (not_le.1 hfull) hlt hg)

section Views

variable {δ β : Type} [Zero β] [Arithmetic (Except δ) β] {view : Grid α → Grid β} {w limit : Nat}

def ClearsView (ε δ : Type) [Arithmetic (Except ε) α] [Arithmetic (Except δ) β]
    (view : Grid α → Grid β) (w limit : Nat) : Prop :=
  ∀ {g k : Grid α} {r c : Nat}, g.width = w → r < g.height → c < limit →
    clearColumn (m := Except ε) g r c = .ok k →
      clearColumn (m := Except δ) (view g) r c = .ok (view k)

/-- The first pass finds the same pivots on the view and leaves the view of its grid. -/
theorem SameZeros.pass (h : SameZeros (Except ε) (Except δ) view w limit)
    (hclear : ClearsView ε δ view w limit) (hlimit : limit ≤ w) (hpass : Pass ε g pivots cols x)
    (hw : g.width = w) (hcols : ∀ c ∈ cols, c < limit) {s : Implicit α} (hs : x = .ok s) :
    Pass δ (view g) pivots cols (.ok ⟨view s.grid, s.pivots⟩) := by
  have hsame : ∀ {g : Grid α} {pivots} {c}, g.width = w → c < limit →
      pivotRow? (Except δ) (view g) c (freeRows (view g).height pivots) =
        pivotRow? (Except ε) g c (freeRows g.height pivots) := by
    intro g pivots c hw hc
    rw [h.height, h.pivotRow?_eq hw hc fun i hi => (mem_freeRows.1 hi).1]
  induction hpass with
  | done =>
    cases hs
    exact .done _ _
  | @full g _ c cols hfull =>
    cases hs
    exact .full c cols (hfull.trans (h.height g).symm)
  | @skip g _ c _ _ hopen hrow _ ih =>
    have hc := hcols c List.mem_cons_self
    exact .skip (h.height g ▸ hopen) ((hsame hw hc).trans hrow)
      (ih hw (fun c' hc' => hcols c' (List.mem_cons_of_mem c hc')) hs)
  | fail => cases hs
  | @clear g _ _ c _ _ _ hopen hrow hk _ ih =>
    have hc := hcols c List.mem_cons_self
    have hwidth := ((clearColumn_eq_ok_iff (hw ▸ hc.trans_le hlimit)).1 hk).2.1
    exact .clear (h.height g ▸ hopen) ((hsame hw hc).trans hrow)
      (hclear hw (lt_of_pivotRow? hrow) hc hk)
      (ih (hwidth.trans hw) (fun c' hc' => hcols c' (List.mem_cons_of_mem c hc')) hs)

theorem explicit_eq_ok_iff {e : Grid α} {swaps : Nat} :
    explicit (m := Except ε) g limit = .ok (e, swaps) ↔
      ∃ s, implicit (m := Except ε) g limit = .ok s ∧
        echelonAlong (Except ε) s.grid 0 0 (List.range limit) = (e, swaps) := by
  rw [explicit, bind_eq_ok]
  simp only [pure, Except.pure, Except.ok.injEq]

theorem shape_of_implicit {s : Implicit α} (hlimit : limit ≤ g.width)
    (hs : implicit (m := Except ε) g limit = .ok s) :
    s.grid.height = g.height ∧ s.grid.width = g.width := by
  refine (pass_iff.2 hs).keeps (p := fun k => k.height = g.height ∧ k.width = g.width) ?_
    (fun _ hc => (List.mem_range.1 hc).trans_le hlimit) rfl ⟨rfl, rfl⟩
  rintro k k' r c - hc hk' ⟨hheight, hwidth⟩
  obtain ⟨hheight', hwidth', -⟩ := (clearColumn_eq_ok_iff hc).1 hk'
  exact ⟨hheight'.trans hheight, hwidth'.trans hwidth⟩

theorem shape_of_explicit {e : Grid α} {swaps : Nat} (hlimit : limit ≤ g.width)
    (he : explicit (m := Except ε) g limit = .ok (e, swaps)) :
    e.height = g.height ∧ e.width = g.width := by
  obtain ⟨s, hs, hpass⟩ := explicit_eq_ok_iff.1 he
  have hshape := keeps_echelonAlong (m := Except ε)
    (p := fun k => k.height = g.height ∧ k.width = g.width)
    (fun _ _ hk => ⟨(Grid.height_ofFn ..).trans hk.1, hk.2⟩) 0 0 (List.range limit)
    (shape_of_implicit hlimit hs)
  rwa [hpass] at hshape

theorem SameZeros.implicit_eq (h : SameZeros (Except ε) (Except δ) view w limit)
    (hclear : ClearsView ε δ view w limit) (hlimit : limit ≤ w) (hw : g.width = w)
    {s : Implicit α} (hs : implicit (m := Except ε) g limit = .ok s) :
    implicit (m := Except δ) (view g) limit = .ok ⟨view s.grid, s.pivots⟩ :=
  (h.pass hclear hlimit (pass_iff.2 hs) hw (fun _ hc => List.mem_range.1 hc) rfl).eq

theorem SameZeros.explicit_eq (h : SameZeros (Except ε) (Except δ) view w limit)
    (hclear : ClearsView ε δ view w limit) (hlimit : limit ≤ w) (hw : g.width = w)
    {e : Grid α} {swaps : Nat} (he : explicit (m := Except ε) g limit = .ok (e, swaps)) :
    explicit (m := Except δ) (view g) limit = .ok (view e, swaps) := by
  obtain ⟨s, hs, hpass⟩ := explicit_eq_ok_iff.1 he
  have hwidth := (shape_of_implicit (hw.symm ▸ hlimit) hs).2
  refine explicit_eq_ok_iff.2 ⟨_, h.implicit_eq hclear hlimit hw hs, ?_⟩
  rw [h.echelonAlong_eq (hwidth.trans hw) (fun _ hc => List.mem_range.1 hc), hpass]

end Views

end Reduction

end TwoPhase
