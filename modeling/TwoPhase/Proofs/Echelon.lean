import Mathlib.LinearAlgebra.Matrix.Block
import TwoPhase.Proofs.Elimination

/-!
The second pass after a sweep. It does not know which rows hold the pivots and looks for cells that
are not zero; it finds the pivots again, in their order, since a pivot stands alone in its column
and the rows not yet placed are blank so far. So the result is the swept grid with its rows
permuted, the pivot rows first, and each swap changes the sign of the permutation. For a square
grid the result is upper triangular, with the determinant up to that sign.
-/
namespace TwoPhase

namespace Reduction

open Arithmetic

theorem mem_drop_range {n t i : Nat} : i ∈ (List.range n).drop t ↔ t ≤ i ∧ i < n := by
  rw [List.range_eq_range', List.drop_range', List.mem_range'_1]
  omega

variable {n t swaps limit c : Nat} {w e : Grid Rat} {pivots : List (Nat × Nat)}
  {σ : Equiv.Perm (Fin n)}

/-- The rows of `w` permuted by `σ`, the first `t` pivots in the first places. -/
structure Arranged (w e : Grid Rat) (σ : Equiv.Perm (Fin n)) (pivots : List (Nat × Nat))
    (t swaps : Nat) : Prop where
  height : e.height = n
  width : e.width = w.width
  cell : ∀ (i : Fin n) (j : Nat), j < w.width → e.cell i j = w.cell (σ i) j
  sign : (Equiv.Perm.sign σ : Int) = (-1) ^ swaps
  target_le : t ≤ pivots.length
  placed : ∀ i : Fin n, ∀ hi : i < pivots.length, i < t → (σ i : Nat) = pivots[i].1

theorem Arranged.refl (hn : w.height = n) : Arranged w w (1 : Equiv.Perm (Fin n)) pivots 0 0 where
  height := hn
  width := rfl
  cell _ _ _ := rfl
  sign := congrArg Units.val Equiv.Perm.sign_one
  target_le := Nat.zero_le _
  placed _ _ hi := absurd hi (Nat.not_lt_zero _)

theorem Arranged.keep (h : Arranged w e σ pivots t swaps) (ht : t < pivots.length) (htn : t < n)
    (hrow : (σ ⟨t, htn⟩ : Nat) = pivots[t].1) : Arranged w e σ pivots (t + 1) swaps where
  __ := h
  target_le := ht
  placed i hi hit := by
    rcases Nat.lt_succ_iff_lt_or_eq.1 hit with hit | rfl
    · exact h.placed i hi hit
    · exact hrow

theorem Arranged.swap (h : Arranged w e σ pivots t swaps) (ht : t < pivots.length)
    {target row : Fin n} (htarget : target = t) (hrow : target < row)
    (hpivot : (σ row : Nat) = pivots[t].1) :
    Arranged w (swapRows e target row) (σ * Equiv.swap target row) pivots (t + 1) (swaps + 1) where
  height := (Grid.height_ofFn ..).trans h.height
  width := h.width
  cell i j hj := by
    have hj' : j < e.width := h.width.symm ▸ hj
    rw [swapRows, Grid.cell_ofFn _ _ _ (h.height.symm ▸ i.isLt) hj', Equiv.Perm.mul_apply,
      ← h.cell _ j hj, Equiv.swap_apply_def]
    simp only [Fin.ext_iff, apply_ite Fin.val]
  sign := by
    rw [Equiv.Perm.sign_mul, Units.val_mul, h.sign, Equiv.Perm.sign_swap hrow.ne, pow_succ]
    rfl
  target_le := ht
  placed i hi hit := by
    subst htarget
    rw [Equiv.Perm.mul_apply]
    rcases Nat.lt_succ_iff_lt_or_eq.1 hit with hit | hit
    · rw [Equiv.swap_apply_of_ne_of_ne (Fin.ne_of_lt hit) (Fin.ne_of_lt (hit.trans hrow))]
      exact h.placed i hi hit
    · obtain rfl := Fin.ext hit
      rw [Equiv.swap_apply_left]
      exact hpivot

theorem Arranged.free_or_pivot (h : Arranged w e σ pivots t swaps) {i : Fin n} (hi : t ≤ i) :
    (σ i : Nat) ∈ freeRows n pivots ∨
      ∃ k, ∃ hk : k < pivots.length, t ≤ k ∧ (σ i : Nat) = pivots[k].1 := by
  by_cases hfree : ∀ q ∈ pivots, q.1 ≠ σ i
  · exact .inl (mem_freeRows.2 ⟨(σ i).isLt, hfree⟩)
  push Not at hfree
  obtain ⟨q, hq, hqi⟩ := hfree
  obtain ⟨k, hk, rfl⟩ := List.getElem_of_mem hq
  refine .inr ⟨k, hk, ?_, hqi.symm⟩
  by_contra hkt
  have hki : k < i := (not_le.1 hkt).trans_le hi
  have hplaced := h.placed ⟨k, hki.trans i.isLt⟩ hk (not_le.1 hkt)
  have hsame := σ.injective (Fin.ext (hplaced.trans hqi))
  exact hki.ne (congrArg Fin.val hsame)

/-- Where the next pivot lies further right, nothing is found. -/
theorem Arranged.pivotRow?_eq_none (h : Arranged w e σ pivots t swaps) (hw : Swept w pivots limit)
    (hn : w.height = n) (hlimit : limit ≤ w.width) (hc : c < limit)
    (hlater : ∀ k, ∀ hk : k < pivots.length, t ≤ k → c < pivots[k].2) :
    pivotRow? Id e c ((List.range n).drop t) = none := by
  refine Reduction.pivotRow?_eq_none.2 fun i hi => ?_
  obtain ⟨hti, hin⟩ := mem_drop_range.1 hi
  rw [h.cell ⟨i, hin⟩ c (hc.trans_le hlimit)]
  rcases h.free_or_pivot (i := ⟨i, hin⟩) hti with hfree | ⟨k, hk, htk, hrow⟩
  · exact hw.blank _ (hn ▸ hfree) c hc
  · rw [hrow]
    exact hw.leading _ (List.getElem_mem hk) c (hlater k hk htk)

/-- In the column of the next pivot its row is found. -/
theorem Arranged.exists_pivotRow (h : Arranged w e σ pivots t swaps) (hw : Swept w pivots limit)
    (hn : w.height = n) (hlimit : limit ≤ w.width) (ht : t < pivots.length)
    (hc : pivots[t].2 = c) :
    ∃ row : Fin n, pivotRow? Id e c ((List.range n).drop t) = some ↑row ∧ t ≤ row ∧
      (σ row : Nat) = pivots[t].1 := by
  have hmem := List.getElem_mem ht
  have hcw : c < w.width := hc ▸ (hw.col_lt _ hmem).trans_le hlimit
  cases hrow : pivotRow? Id e c ((List.range n).drop t) with
  | none =>
    exfalso
    have hlt : pivots[t].1 < n := hn ▸ hw.row_lt _ hmem
    let i : Fin n := σ.symm ⟨pivots[t].1, hlt⟩
    have hi : σ i = ⟨pivots[t].1, hlt⟩ := σ.apply_symm_apply _
    have hti : t ≤ i := by
      by_contra hit
      have hplaced := h.placed i ((not_le.1 hit).trans ht) (not_le.1 hit)
      rw [hi] at hplaced
      exact hit (hw.fst_inj ((not_le.1 hit).trans ht) ht hplaced.symm).ge
    have hzero := Reduction.pivotRow?_eq_none.1 hrow i (mem_drop_range.2 ⟨hti, i.isLt⟩)
    rw [h.cell i c hcw, hi] at hzero
    exact hw.ne_zero _ hmem (hc ▸ hzero)
  | some r =>
    obtain ⟨hr, hpivot⟩ := pivotRow?_eq_some hrow
    obtain ⟨htr, hrn⟩ := mem_drop_range.1 hr
    refine ⟨⟨r, hrn⟩, rfl, htr, ?_⟩
    by_contra hne
    rw [h.cell ⟨r, hrn⟩ c hcw, ← hc] at hpivot
    exact hpivot (hw.alone _ hmem _ (hn ▸ (σ ⟨r, hrn⟩).isLt) hne)

theorem Swept.lt_succ_iff (hw : Swept w pivots limit) (ht : t < pivots.length)
    (hc : pivots[t].2 = c) (i : Nat) (hi : i < pivots.length) :
    i < t + 1 ↔ pivots[i].2 < c + 1 := by
  rcases lt_trichotomy i t with hit | rfl | hit
  · have hlt := hw.snd_lt_snd hit hi ht
    omega
  · omega
  · have hlt := hw.snd_lt_snd hit ht hi
    omega

theorem Swept.lt_of_le (hw : Swept w pivots limit) (ht : ∀ h : t < pivots.length, c < pivots[t].2)
    (i : Nat) (hi : i < pivots.length) (hti : t ≤ i) : c < pivots[i].2 := by
  rcases hti.eq_or_lt with rfl | hti
  · exact ht hi
  · exact (ht (hti.trans hi)).trans (hw.snd_lt_snd hti (hti.trans hi) hi)

theorem Swept.eq_length (hw : Swept w pivots limit) (ht : t ≤ pivots.length)
    (hplaced : ∀ i, ∀ hi : i < pivots.length, i < t ↔ pivots[i].2 < limit) :
    t = pivots.length :=
  le_antisymm ht (not_lt.1 fun hlt =>
    lt_irrefl t ((hplaced t hlt).2 (hw.col_lt _ (List.getElem_mem hlt))))

theorem Swept.later (hw : Swept w pivots limit)
    (hplaced : ∀ i, ∀ hi : i < pivots.length, i < t ↔ pivots[i].2 < c)
    (hnext : ¬∃ ht : t < pivots.length, pivots[t].2 = c) (i : Nat) (hi : i < pivots.length)
    (hti : t ≤ i) : c < pivots[i].2 := by
  refine hw.lt_of_le (fun ht => ?_) i hi hti
  have hle : c ≤ pivots[t].2 := not_lt.1 fun hlt => lt_irrefl t ((hplaced t ht).2 hlt)
  exact lt_of_le_of_ne hle fun hc => hnext ⟨ht, hc.symm⟩

theorem placed_succ (hplaced : ∀ i, ∀ hi : i < pivots.length, i < t ↔ pivots[i].2 < c)
    (hlater : ∀ i, ∀ hi : i < pivots.length, t ≤ i → c < pivots[i].2) (i : Nat)
    (hi : i < pivots.length) : i < t ↔ pivots[i].2 < c + 1 := by
  refine ⟨fun hit => ((hplaced i hi).1 hit).trans c.lt_succ_self, fun hic => ?_⟩
  exact not_le.1 fun hti => absurd (hlater i hi hti) (by omega)

/-- From `t` pivots in their places, those left of `c`, the pass goes on to place all. -/
theorem echelonAlong_arranged (hw : Swept w pivots limit) (hn : w.height = n)
    (hlimit : limit ≤ w.width) {k : Nat} (hck : c + k = limit)
    (h : Arranged w e σ pivots t swaps)
    (hplaced : ∀ i, ∀ hi : i < pivots.length, i < t ↔ pivots[i].2 < c) :
    ∃ τ : Equiv.Perm (Fin n), Arranged w (echelonAlong Id e t swaps (List.range' c k)).1 τ pivots
      pivots.length (echelonAlong Id e t swaps (List.range' c k)).2 := by
  induction k generalizing e σ t swaps c with
  | zero =>
    subst hck
    exact ⟨σ, hw.eq_length h.target_le hplaced ▸ h⟩
  | succ k ih =>
    rw [List.range'_succ, echelonAlong, h.height]
    by_cases hfull : n ≤ t
    · have htarget : t = pivots.length :=
        le_antisymm h.target_le ((hw.length_le.trans_eq hn).trans hfull)
      rw [if_pos hfull]
      exact ⟨σ, htarget ▸ h⟩
    rw [if_neg hfull]
    by_cases hnext : ∃ ht : t < pivots.length, pivots[t].2 = c
    · obtain ⟨ht, hc⟩ := hnext
      obtain ⟨row, hfind, htrow, hrow⟩ := h.exists_pivotRow hw hn hlimit ht hc
      rw [hfind]
      dsimp only
      rcases htrow.eq_or_lt with rfl | htrow
      · rw [if_pos rfl]
        exact ih (by omega) (h.keep ht row.isLt hrow) (hw.lt_succ_iff ht hc)
      · rw [if_neg htrow.ne']
        have htarget : ((⟨t, not_le.1 hfull⟩ : Fin n) : Nat) = t := rfl
        exact ih (by omega) (h.swap ht htarget htrow hrow) (hw.lt_succ_iff ht hc)
    · have hlater := hw.later hplaced hnext
      rw [h.pivotRow?_eq_none hw hn hlimit (by omega) hlater]
      exact ih (by omega) h (placed_succ hplaced hlater)

theorem Swept.le_snd (hw : Swept w pivots limit) {i : Nat} (hi : i < pivots.length) :
    i ≤ pivots[i].2 := by
  induction i with
  | zero => exact Nat.zero_le _
  | succ i ih => exact (ih (by omega)).trans_lt (hw.snd_lt_snd i.lt_succ_self (by omega) hi)

theorem Arranged.isUpperTriangular (h : Arranged w e σ pivots pivots.length swaps)
    (hw : Swept w pivots n) (hn : w.height = n) (hwidth : w.width = n) :
    (e.matrix n n).IsUpperTriangular := by
  intro i j hji
  rw [Grid.matrix_apply, h.cell i j (hwidth.symm ▸ j.isLt)]
  by_cases hi : i < pivots.length
  · rw [h.placed i hi hi]
    exact hw.leading _ (List.getElem_mem hi) j ((Fin.lt_def.1 hji).trans_le (hw.le_snd hi))
  · rcases h.free_or_pivot (not_lt.1 hi) with hfree | ⟨k, hk, htk, -⟩
    · exact hw.blank _ (hn ▸ hfree) j j.isLt
    · exact absurd hk (not_lt.2 htk)

theorem Arranged.matrix_eq (h : Arranged w e σ pivots t swaps) {m : Nat} (hwidth : w.width = m) :
    e.matrix n m = (w.matrix n m).submatrix σ id := by
  ext i j
  exact h.cell i j (hwidth.symm ▸ j.isLt)

theorem Arranged.det_matrix (h : Arranged w e σ pivots t swaps) (hwidth : w.width = n) :
    (e.matrix n n).det = (-1) ^ swaps * (w.matrix n n).det := by
  rw [h.matrix_eq hwidth, Matrix.det_permute, h.sign]
  push_cast
  rfl

theorem Sweep.det_matrix {g : Grid Rat} {cols : List Nat} {s : Implicit Rat}
    (h : Sweep g pivots cols s) (hh : g.height = n) (hw : g.width = n) :
    (s.grid.matrix n n).det = (g.matrix n n).det := by
  obtain ⟨k, hk, hmatrix⟩ := h.exists_eliminator hh hw
  rw [hmatrix, Matrix.det_mul, hk, one_mul]

theorem Arranged.signed_diagonal {g : Grid Rat} {cols : List Nat} {s : Implicit Rat}
    (h : Arranged s.grid e σ s.pivots s.pivots.length swaps) (hsweep : Sweep g [] cols s)
    (hswept : Swept s.grid s.pivots n) (hh : g.height = n) (hw : g.width = n) :
    (g.matrix n n).det = (-1) ^ swaps * ∏ i : Fin n, e.cell i i := by
  have hheight := hsweep.height.trans hh
  have hwidth := hsweep.width.trans hw
  have hdiagonal := Matrix.det_of_isUpperTriangular (h.isUpperTriangular hswept hheight hwidth)
  calc (g.matrix n n).det
      = (s.grid.matrix n n).det := (hsweep.det_matrix hh hw).symm
    _ = (-1) ^ swaps * ((-1) ^ swaps * (s.grid.matrix n n).det) := by
      rw [← mul_assoc, ← mul_pow, neg_one_mul, neg_neg, one_pow, one_mul]
    _ = (-1) ^ swaps * (e.matrix n n).det := by rw [h.det_matrix hwidth]
    _ = (-1) ^ swaps * ∏ i : Fin n, e.cell i i := by
      rw [hdiagonal]
      rfl

variable {m : Type → Type} [Monad m] [LawfulMonad m] {α : Type} [Zero α] [Arithmetic m α]
  {cell : Rat → α} {g : Grid Rat}

/-- After the first pass the second permutes the rows. -/
theorem exists_explicit_of_implicit (h : Exact m cell) (hn : w.height = n)
    (hlimit : limit ≤ w.width) (hswept : Swept w pivots limit)
    (hw : implicit (m := m) (g.map cell) limit = pure ⟨w.map cell, pivots⟩) :
    ∃ e swaps, ∃ σ : Equiv.Perm (Fin n), Arranged w e σ pivots pivots.length swaps ∧
      explicit (m := m) (g.map cell) limit = pure (e.map cell, swaps) := by
  have hcols : ∀ c ∈ List.range limit, c < w.width := fun c hc =>
    (List.mem_range.1 hc).trans_le hlimit
  have hplaced : ∀ i, ∀ hi : i < pivots.length, i < 0 ↔ pivots[i].2 < 0 := by simp
  obtain ⟨σ, hσ⟩ := echelonAlong_arranged hswept hn hlimit (Nat.zero_add limit) (.refl hn) hplaced
  refine ⟨_, _, σ, hσ, ?_⟩
  rw [explicit, hw, pure_bind, ← List.range_eq_range',
    (sameZeros_exact h _).echelonAlong_eq rfl hcols]

theorem exists_explicit (h : Exact m cell) (hn : g.height = n) (hlimit : limit ≤ g.width) :
    ∃ s e swaps, ∃ σ : Equiv.Perm (Fin n), Sweep g [] (List.range limit) s ∧
      Swept s.grid s.pivots limit ∧ Arranged s.grid e σ s.pivots s.pivots.length swaps ∧
      explicit (m := m) (g.map cell) limit = pure (e.map cell, swaps) := by
  obtain ⟨s, hsweep, hswept, hs⟩ := exists_implicit h hlimit
  obtain ⟨e, swaps, σ, hσ, he⟩ := exists_explicit_of_implicit h (hsweep.height.trans hn)
    (hsweep.width ▸ hlimit) hswept hs
  exact ⟨s, e, swaps, σ, hsweep, hswept, hσ, he⟩

omit [Zero α] in
theorem foldlM_mul (h : Exact m cell) (negative : Bool) {f : Nat → α} {u : Nat → Rat}
    (hf : ∀ i ≤ n, f i = cell (u i)) :
    (List.range (n + 1)).foldlM (fun d i => Arithmetic.mul (m := m) d (f i))
        (Arithmetic.unit m negative) =
      pure (cell ((if negative then -1 else 1) * ∏ i ∈ Finset.range (n + 1), u i)) := by
  induction n with
  | zero =>
    rw [List.range_one, List.foldlM_cons, hf 0 le_rfl, h.unit_mul]
    cases negative <;> simp
  | succ n ih =>
    rw [List.range_succ, List.foldlM_append, ih fun i hi => hf i (hi.trans n.le_succ), pure_bind,
      Finset.prod_range_succ _ (n + 1), ← mul_assoc]
    simp [hf (n + 1) le_rfl, h.mul]

/-- The signed product of the diagonal is the determinant, singular or not. -/
theorem det_map (h : Exact m cell) (hh : g.height = n + 1) (hw : g.width = n + 1) :
    det (m := m) (g.map cell) = pure (cell (g.matrix (n + 1) (n + 1)).det) := by
  obtain ⟨s, e, swaps, σ, hsweep, hswept, hσ, hexplicit⟩ := exists_explicit h hh le_rfl
  have hdet := hσ.signed_diagonal hsweep (hw ▸ hswept) hh hw
  have hsign : (if decide (swaps % 2 = 1) then -1 else 1 : Rat) = (-1) ^ swaps := by
    rcases Nat.even_or_odd swaps with heven | hodd
    · rw [heven.neg_one_pow, Nat.even_iff.1 heven]
      rfl
    · rw [hodd.neg_one_pow, Nat.odd_iff.1 hodd]
      rfl
  rw [det, Grid.width_map, hexplicit, pure_bind, hdet, ← hsign]
  dsimp only
  rw [Grid.height_map, hσ.height, Fin.prod_univ_eq_prod_range (fun i => e.cell i i)]
  refine foldlM_mul h _ fun i hi => Grid.cell_map ?_ ?_
  · rw [hσ.height]
    omega
  · rw [hσ.width, hsweep.width, hw]
    omega

end Reduction

end TwoPhase
