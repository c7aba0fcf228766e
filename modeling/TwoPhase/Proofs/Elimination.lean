import Mathlib.Data.List.Nodup
import Mathlib.LinearAlgebra.Matrix.SchurComplement
import Mathlib.Tactic.FieldSimp
import TwoPhase.Proofs.ExactCells

/-!
The first pass over the rationals. A sweep passes columns over, clears them or stops when each row
has its pivot. Each clearing multiplies the grid from the left by a matrix of determinant one. The
invariant of the sweep holds up to the current column: pivots stand alone in their columns and lead
their rows, rows without a pivot are blank. A row is only ever changed by a row that is blank so
far, which is why nothing that was cleared fills again. No shape is assumed, and the columns to
the right of the limit may hold anything.
-/
namespace TwoPhase

def Grid.matrix {α : Type} [Zero α] (g : Grid α) (h w : Nat) : Matrix (Fin h) (Fin w) α :=
  Matrix.of fun i j => g.cell i j

theorem Grid.matrix_apply {α : Type} [Zero α] (g : Grid α) {h w : Nat} (i : Fin h) (j : Fin w) :
    g.matrix h w i j = g.cell i j :=
  rfl

namespace Reduction

open Arithmetic

variable {g : Grid Rat} {pivots : List (Nat × Nat)} {cols : List Nat} {r c : Nat}
  {s : Implicit Rat}

theorem pivotRow?_eq_some {candidates : List Nat} (h : pivotRow? Id g c candidates = some r) :
    r ∈ candidates ∧ g.cell r c ≠ 0 :=
  ⟨List.mem_of_find?_eq_some h, by simpa [Arithmetic.isZero] using List.find?_some h⟩

theorem pivotRow?_eq_none {candidates : List Nat} :
    pivotRow? Id g c candidates = none ↔ ∀ i ∈ candidates, g.cell i c = 0 := by
  simp [pivotRow?, Arithmetic.isZero]

inductive Sweep : Grid Rat → List (Nat × Nat) → List Nat → Implicit Rat → Prop where
  | done (g : Grid Rat) (pivots : List (Nat × Nat)) : Sweep g pivots [] ⟨g, pivots⟩
  | full {g : Grid Rat} {pivots : List (Nat × Nat)} (c : Nat) (cols : List Nat)
      (hfull : pivots.length = g.height) : Sweep g pivots (c :: cols) ⟨g, pivots⟩
  | skip {g : Grid Rat} {pivots : List (Nat × Nat)} {c : Nat} {cols : List Nat}
      {s : Implicit Rat} (hopen : pivots.length ≠ g.height)
      (hrow : pivotRow? Id g c (freeRows g.height pivots) = none)
      (rest : Sweep g pivots cols s) : Sweep g pivots (c :: cols) s
  | clear {g : Grid Rat} {pivots : List (Nat × Nat)} {c r : Nat} {cols : List Nat}
      {s : Implicit Rat} (hopen : pivots.length ≠ g.height)
      (hrow : pivotRow? Id g c (freeRows g.height pivots) = some r)
      (rest : Sweep (cleared g r c) (pivots ++ [(r, c)]) cols s) : Sweep g pivots (c :: cols) s

theorem exists_sweep (g : Grid Rat) (pivots : List (Nat × Nat)) (cols : List Nat) :
    ∃ s, Sweep g pivots cols s := by
  induction cols generalizing g pivots with
  | nil => exact ⟨_, .done g pivots⟩
  | cons c cols ih =>
    by_cases hfull : pivots.length = g.height
    · exact ⟨_, .full c cols hfull⟩
    cases hrow : pivotRow? Id g c (freeRows g.height pivots) with
    | none =>
      obtain ⟨s, hs⟩ := ih g pivots
      exact ⟨s, .skip hfull hrow hs⟩
    | some r =>
      obtain ⟨s, hs⟩ := ih (cleared g r c) (pivots ++ [(r, c)])
      exact ⟨s, .clear hfull hrow hs⟩

/-- Exact cells are reduced along the sweep of the rationals for which they stand. -/
theorem Sweep.reduceAlong_map {m : Type → Type} [Monad m] [LawfulMonad m] {α : Type} [Zero α]
    [Arithmetic m α] {cell : Rat → α} (h : Exact m cell) (hsweep : Sweep g pivots cols s)
    (hcols : ∀ c ∈ cols, c < g.width) :
    reduceAlong (m := m) (g.map cell) pivots cols = pure ⟨s.grid.map cell, s.pivots⟩ := by
  have hlt : ∀ (g : Grid Rat) (pivots), ∀ i ∈ freeRows g.height pivots, i < g.height :=
    fun _ _ i hi => (mem_freeRows.1 hi).1
  induction hsweep with
  | done => rfl
  | full _ _ hfull => rw [reduceAlong_cons, Grid.height_map, if_pos hfull]
  | skip hopen hrow _ ih =>
    rw [reduceAlong_cons, Grid.height_map, if_neg hopen,
      (sameZeros_exact h _).pivotRow?_eq rfl (hcols _ List.mem_cons_self) (hlt _ _), hrow]
    exact ih fun c' hc' => hcols c' (List.mem_cons_of_mem _ hc')
  | clear hopen hrow _ ih =>
    obtain ⟨hr, hpivot⟩ := pivotRow?_eq_some hrow
    rw [reduceAlong_cons, Grid.height_map, if_neg hopen,
      (sameZeros_exact h _).pivotRow?_eq rfl (hcols _ List.mem_cons_self) (hlt _ _), hrow]
    dsimp only
    rw [clearColumn_map h (hlt _ _ _ hr) (hcols _ List.mem_cons_self) hpivot, pure_bind]
    exact ih fun c' hc' => hcols c' (List.mem_cons_of_mem _ hc')

theorem Sweep.height (h : Sweep g pivots cols s) : s.grid.height = g.height := by
  induction h with
  | done => rfl
  | full => rfl
  | skip _ _ _ ih => exact ih
  | clear _ _ _ ih => rw [ih, height_cleared]

theorem Sweep.width (h : Sweep g pivots cols s) : s.grid.width = g.width := by
  induction h with
  | done => rfl
  | full => rfl
  | skip _ _ _ ih => exact ih
  | clear _ _ _ ih => rw [ih, width_cleared]

theorem cell_cleared {i j : Nat} (hi : i < g.height) (hj : j < g.width) :
    (cleared g r c).cell i j =
      if i = r then g.cell i j else g.cell i j - g.cell i c / g.cell r c * g.cell r j :=
  Grid.cell_ofFn _ _ _ hi hj

def eliminator (g : Grid Rat) (h : Nat) (r : Fin h) (c : Nat) : Matrix (Fin h) (Fin h) Rat :=
  1 - Matrix.vecMulVec (fun i => if i = r then 0 else g.cell i c / g.cell r c) (Pi.single r 1)

theorem det_eliminator (g : Grid Rat) {h : Nat} (r : Fin h) (c : Nat) :
    (eliminator g h r c).det = 1 := by
  rw [eliminator, Matrix.vecMulVec_eq Unit, Matrix.det_one_sub_mul_comm, Matrix.det_unique,
    Matrix.sub_apply, Matrix.one_apply_eq, sub_eq_self, Matrix.mul_apply]
  refine Finset.sum_eq_zero fun i _ => ?_
  by_cases hi : i = r <;> simp [hi]

theorem eliminator_mul_apply (g : Grid Rat) {h w : Nat} (r : Fin h) (c : Nat)
    (a : Matrix (Fin h) (Fin w) Rat) (i : Fin h) (j : Fin w) :
    (eliminator g h r c * a) i j =
      a i j - (if i = r then 0 else g.cell i c / g.cell r c) * a r j := by
  rw [eliminator, Matrix.sub_mul, Matrix.one_mul, Matrix.sub_apply, Matrix.mul_apply]
  simp [Matrix.vecMulVec_apply, Pi.single_apply]

theorem matrix_cleared {h w : Nat} (hh : g.height = h) (hw : g.width = w) (r : Fin h) (c : Nat) :
    (cleared g r c).matrix h w = eliminator g h r c * g.matrix h w := by
  ext i j
  rw [eliminator_mul_apply, Grid.matrix_apply, Grid.matrix_apply, Grid.matrix_apply,
    cell_cleared (by omega) (by omega)]
  by_cases hi : i = r
  · simp [hi]
  · rw [if_neg hi, if_neg (Fin.val_ne_of_ne hi)]

theorem Sweep.exists_eliminator (h : Sweep g pivots cols s) {n w : Nat} (hn : g.height = n)
    (hw : g.width = w) :
    ∃ e : Matrix (Fin n) (Fin n) Rat, e.det = 1 ∧ s.grid.matrix n w = e * g.matrix n w := by
  induction h with
  | done => exact ⟨1, Matrix.det_one, (Matrix.one_mul _).symm⟩
  | full => exact ⟨1, Matrix.det_one, (Matrix.one_mul _).symm⟩
  | skip _ _ _ ih => exact ih hn hw
  | @clear g pivots c r cols s _ hrow _ ih =>
    obtain ⟨e, hdet, he⟩ := ih (by rwa [height_cleared]) (by rwa [width_cleared])
    obtain ⟨hr, -⟩ := mem_freeRows.1 (pivotRow?_eq_some hrow).1
    refine ⟨e * eliminator g n ⟨r, hn ▸ hr⟩ c, ?_, ?_⟩
    · rw [Matrix.det_mul, hdet, det_eliminator, one_mul]
    · rw [he, Matrix.mul_assoc, ← matrix_cleared hn hw ⟨r, hn ▸ hr⟩ c]

/-- What holds when the columns left of `c` are swept. -/
structure Swept (g : Grid Rat) (pivots : List (Nat × Nat)) (c : Nat) : Prop where
  row_lt : ∀ q ∈ pivots, q.1 < g.height
  col_lt : ∀ q ∈ pivots, q.2 < c
  nodup : (pivots.map Prod.fst).Nodup
  ascending : (pivots.map Prod.snd).Pairwise (· < ·)
  ne_zero : ∀ q ∈ pivots, g.cell q.1 q.2 ≠ 0
  alone : ∀ q ∈ pivots, ∀ i < g.height, i ≠ q.1 → g.cell i q.2 = 0
  leading : ∀ q ∈ pivots, ∀ j < q.2, g.cell q.1 j = 0
  blank : ∀ i ∈ freeRows g.height pivots, ∀ j < c, g.cell i j = 0

theorem swept_nil (g : Grid Rat) : Swept g [] 0 where
  row_lt := by simp
  col_lt := by simp
  nodup := by simp
  ascending := by simp
  ne_zero := by simp
  alone := by simp
  leading := by simp
  blank := by simp

theorem Swept.skip (h : Swept g pivots c)
    (hrow : pivotRow? Id g c (freeRows g.height pivots) = none) : Swept g pivots (c + 1) where
  __ := h
  col_lt q hq := (h.col_lt q hq).trans c.lt_succ_self
  blank i hi j hj := by
    rcases Nat.lt_succ_iff_lt_or_eq.1 hj with hj | rfl
    · exact h.blank i hi j hj
    · exact pivotRow?_eq_none.1 hrow i hi

theorem Swept.clear (h : Swept g pivots c) (hc : c < g.width) (hr : r ∈ freeRows g.height pivots)
    (hpivot : g.cell r c ≠ 0) : Swept (cleared g r c) (pivots ++ [(r, c)]) (c + 1) := by
  obtain ⟨hrow, hfree⟩ := mem_freeRows.1 hr
  -- The pivot row is blank left of `c`, so there no cell changes.
  have hkeep : ∀ i < g.height, ∀ j < c, (cleared g r c).cell i j = g.cell i j := by
    intro i hi j hj
    rw [cell_cleared hi (hj.trans hc), h.blank r hr j hj, mul_zero, sub_zero, ite_self]
  have hself : (cleared g r c).cell r c = g.cell r c := by rw [cell_cleared hrow hc, if_pos rfl]
  have hother : ∀ i < g.height, i ≠ r → (cleared g r c).cell i c = 0 := by
    intro i hi hir
    rw [cell_cleared hi hc, if_neg hir, div_mul_cancel₀ _ hpivot, sub_self]
  have hcases : ∀ {p : Nat × Nat → Prop}, (∀ q ∈ pivots, p q) → p (r, c) →
      ∀ q ∈ pivots ++ [(r, c)], p q := by
    intro p hold hnew q hq
    rcases List.mem_append.1 hq with hq | hq
    · exact hold q hq
    · exact List.mem_singleton.1 hq ▸ hnew
  exact
    { row_lt := by
        rw [height_cleared]
        exact hcases h.row_lt hrow
      col_lt := hcases (fun q hq => (h.col_lt q hq).trans c.lt_succ_self) c.lt_succ_self
      nodup := by
        rw [List.map_append, List.nodup_append]
        refine ⟨h.nodup, List.nodup_singleton r, ?_⟩
        simpa using fun q col hq => hfree (q, col) hq
      ascending := by
        rw [List.map_append, List.pairwise_append]
        refine ⟨h.ascending, List.pairwise_singleton _ c, ?_⟩
        simpa using fun col q hq => h.col_lt (q, col) hq
      ne_zero := by
        refine hcases (fun q hq => ?_) (hself ▸ hpivot)
        rw [hkeep q.1 (h.row_lt q hq) q.2 (h.col_lt q hq)]
        exact h.ne_zero q hq
      alone := by
        rw [height_cleared]
        refine hcases (fun q hq i hi hne => ?_) hother
        rw [hkeep i hi q.2 (h.col_lt q hq)]
        exact h.alone q hq i hi hne
      leading := by
        refine hcases (fun q hq j hj => ?_) fun j hj => ?_
        · rw [hkeep q.1 (h.row_lt q hq) j (hj.trans (h.col_lt q hq))]
          exact h.leading q hq j hj
        · rw [hkeep r hrow j hj]
          exact h.blank r hr j hj
      blank := by
        intro i hi j hj
        rw [height_cleared] at hi
        obtain ⟨hlt, hne⟩ := mem_freeRows.1 hi
        have hold : i ∈ freeRows g.height pivots :=
          mem_freeRows.2 ⟨hlt, fun q hq => hne q (List.mem_append_left _ hq)⟩
        rcases Nat.lt_succ_iff_lt_or_eq.1 hj with hj | rfl
        · rw [hkeep i hlt j hj]
          exact h.blank i hold j hj
        · exact hother i hlt (hne (r, j) (by simp)).symm }

theorem Swept.rows_subperm (h : Swept g pivots c) :
    (pivots.map Prod.fst).Subperm (List.range g.height) := by
  refine List.subperm_of_subset h.nodup fun r hr => ?_
  obtain ⟨q, hq, rfl⟩ := List.mem_map.1 hr
  exact List.mem_range.2 (h.row_lt q hq)

theorem Swept.length_le (h : Swept g pivots c) : pivots.length ≤ g.height := by
  simpa using h.rows_subperm.length_le

theorem Swept.snd_lt_snd (h : Swept g pivots c) {i k : Nat} (hik : i < k)
    (hi : i < pivots.length) (hk : k < pivots.length) : pivots[i].2 < pivots[k].2 := by
  have hlt := List.pairwise_iff_getElem.1 h.ascending i k (by rw [List.length_map]; omega)
    (by rwa [List.length_map]) hik
  simpa using hlt

theorem Swept.fst_inj (h : Swept g pivots c) {i k : Nat} (hi : i < pivots.length)
    (hk : k < pivots.length) (hrow : pivots[i].1 = pivots[k].1) : i = k := by
  have hil : i < (pivots.map Prod.fst).length := by rwa [List.length_map]
  have hkl : k < (pivots.map Prod.fst).length := by rwa [List.length_map]
  have hrows : (pivots.map Prod.fst)[i] = (pivots.map Prod.fst)[k] := by simpa using hrow
  exact h.nodup.getElem_inj_iff.1 hrows

theorem Swept.full (h : Swept g pivots c) (hfull : pivots.length = g.height) {d : Nat}
    (hd : c ≤ d) : Swept g pivots d where
  __ := h
  col_lt q hq := (h.col_lt q hq).trans_le hd
  blank i hi := by
    obtain ⟨hi, hne⟩ := mem_freeRows.1 hi
    have hperm := h.rows_subperm.perm_of_length_le (by simp [hfull])
    obtain ⟨q, hq, hqi⟩ := List.mem_map.1 (hperm.mem_iff.2 (List.mem_range.2 hi))
    exact absurd hqi (hne q hq)

theorem Sweep.swept (h : Sweep g pivots cols s) {k : Nat} (hcols : cols = List.range' c k)
    (hck : c + k ≤ g.width) (hswept : Swept g pivots c) : Swept s.grid s.pivots (c + k) := by
  induction h generalizing c k with
  | done =>
    cases k with
    | zero => exact hswept
    | succ k => simp [List.range'_succ] at hcols
  | full _ _ hfull => exact hswept.full hfull (Nat.le_add_right c k)
  | skip _ hrow _ ih =>
    cases k with
    | zero => simp at hcols
    | succ k =>
      rw [List.range'_succ, List.cons.injEq] at hcols
      obtain ⟨rfl, hcols⟩ := hcols
      have hnext := ih hcols (by omega) (hswept.skip hrow)
      rwa [Nat.add_right_comm] at hnext
  | clear _ hrow _ ih =>
    cases k with
    | zero => simp at hcols
    | succ k =>
      rw [List.range'_succ, List.cons.injEq] at hcols
      obtain ⟨rfl, hcols⟩ := hcols
      obtain ⟨hr, hpivot⟩ := pivotRow?_eq_some hrow
      have hnext := ih hcols (by rw [width_cleared]; omega) (hswept.clear (by omega) hr hpivot)
      rwa [Nat.add_right_comm] at hnext

theorem exists_implicit {m : Type → Type} [Monad m] [LawfulMonad m] {α : Type} [Zero α]
    [Arithmetic m α] {cell : Rat → α} (h : Exact m cell) {limit : Nat} (hlimit : limit ≤ g.width) :
    ∃ s, Sweep g [] (List.range limit) s ∧ Swept s.grid s.pivots limit ∧
      implicit (m := m) (g.map cell) limit = pure ⟨s.grid.map cell, s.pivots⟩ := by
  have hcols : ∀ c ∈ List.range limit, c < g.width := fun c hc =>
    (List.mem_range.1 hc).trans_le hlimit
  obtain ⟨s, hsweep⟩ := exists_sweep g [] (List.range limit)
  have hswept := hsweep.swept List.range_eq_range' (by omega) (swept_nil g)
  rw [Nat.zero_add] at hswept
  exact ⟨s, hsweep, hswept, hsweep.reduceAlong_map h hcols⟩

end Reduction

end TwoPhase
