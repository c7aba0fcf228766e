import TwoPhase.Proofs.Echelon
import TwoPhase.Proofs.FullElimination

/-!
Reducing what is reduced. A second run scans for its pivots afresh; on a swept grid it finds those
of the first one, in the same rows and order, and clears nothing, since they stand alone. After
the second pass the rows are in order, so a second run finds each pivot row in its place and swaps
nothing. Columns without a pivot, and those to the right of the limit, may hold anything.
-/
namespace TwoPhase

namespace Reduction

open Arithmetic

variable {n t swaps limit c : Nat} {w e : Grid Rat} {pivots : List (Nat × Nat)}
  {σ : Equiv.Perm (Fin n)}

theorem cleared_eq_self {r : Nat} (h : ∀ i < w.height, i ≠ r → w.cell i c = 0) :
    cleared w r c = w := by
  refine Grid.ext_cell (height_cleared w r c) (width_cleared w r c) fun i j hi hj => ?_
  rw [height_cleared] at hi
  rw [cell_cleared hi hj]
  by_cases hir : i = r
  · rw [if_pos hir]
  · rw [if_neg hir, h i hi hir, zero_div, zero_mul, sub_zero]

theorem mem_take {q : Nat × Nat} :
    q ∈ pivots.take t ↔ ∃ k, ∃ hk : k < pivots.length, k < t ∧ pivots[k] = q := by
  rw [List.mem_take_iff_getElem]
  constructor
  · rintro ⟨k, hk, rfl⟩
    exact ⟨k, by omega, by omega, rfl⟩
  · rintro ⟨k, hk, hkt, rfl⟩
    exact ⟨k, by omega, rfl⟩

/-- With the first `t` pivots found, the next one is found in its column. -/
theorem Swept.pivotRow?_next (hw : Swept w pivots limit) (ht : t < pivots.length)
    (hc : pivots[t].2 = c) :
    pivotRow? Id w c (freeRows w.height (pivots.take t)) = some pivots[t].1 := by
  have hmem := List.getElem_mem ht
  cases hrow : pivotRow? Id w c (freeRows w.height (pivots.take t)) with
  | none =>
    exfalso
    have hfree : pivots[t].1 ∈ freeRows w.height (pivots.take t) := by
      refine mem_freeRows.2 ⟨hw.row_lt _ hmem, fun q hq hrow => ?_⟩
      obtain ⟨k, hk, hkt, rfl⟩ := mem_take.1 hq
      exact hkt.ne (hw.fst_inj hk ht hrow)
    exact hw.ne_zero _ hmem (hc ▸ pivotRow?_eq_none.1 hrow _ hfree)
  | some r =>
    obtain ⟨hr, hpivot⟩ := pivotRow?_eq_some hrow
    by_contra hne
    have hother : r ≠ pivots[t].1 := fun h => hne (congrArg some h)
    exact hpivot (hc ▸ hw.alone _ hmem r (mem_freeRows.1 hr).1 hother)

theorem Swept.pivotRow?_later (hw : Swept w pivots limit) (hc : c < limit)
    (hlater : ∀ k, ∀ hk : k < pivots.length, t ≤ k → c < pivots[k].2) :
    pivotRow? Id w c (freeRows w.height (pivots.take t)) = none := by
  refine pivotRow?_eq_none.2 fun i hi => ?_
  obtain ⟨hi, htaken⟩ := mem_freeRows.1 hi
  by_cases hfree : ∀ q ∈ pivots, q.1 ≠ i
  · exact hw.blank i (mem_freeRows.2 ⟨hi, hfree⟩) c hc
  push Not at hfree
  obtain ⟨q, hq, rfl⟩ := hfree
  obtain ⟨k, hk, rfl⟩ := List.getElem_of_mem hq
  have htk : t ≤ k := not_lt.1 fun hkt => htaken _ (mem_take.2 ⟨k, hk, hkt, rfl⟩) rfl
  exact hw.leading _ hq c (hlater k hk htk)

theorem Swept.sweep_self (hw : Swept w pivots limit) {k : Nat} (hck : c + k = limit)
    (ht : t ≤ pivots.length)
    (hplaced : ∀ i, ∀ hi : i < pivots.length, i < t ↔ pivots[i].2 < c) :
    Sweep w (pivots.take t) (List.range' c k) ⟨w, pivots⟩ := by
  induction k generalizing t c with
  | zero =>
    subst hck
    rw [hw.eq_length ht hplaced, List.take_length]
    exact .done w pivots
  | succ k ih =>
    rw [List.range'_succ]
    by_cases hfull : (pivots.take t).length = w.height
    · have htarget : pivots.take t = pivots := by
        refine List.take_of_length_le (hw.length_le.trans ?_)
        rw [← hfull]
        exact List.length_take_le t pivots
      rw [htarget] at hfull ⊢
      exact .full c _ hfull
    by_cases hnext : ∃ hlt : t < pivots.length, pivots[t].2 = c
    · obtain ⟨hlt, hc⟩ := hnext
      have halone := hw.alone _ (List.getElem_mem hlt)
      rw [hc] at halone
      refine .clear hfull (hw.pivotRow?_next hlt hc) ?_
      have hprefix : pivots.take t ++ [(pivots[t].1, c)] = pivots.take (t + 1) := by
        rw [List.take_succ_eq_append_getElem hlt, ← hc]
      rw [cleared_eq_self halone, hprefix]
      exact ih (by omega) hlt (hw.lt_succ_iff hlt hc)
    · have hlater := hw.later hplaced hnext
      refine .skip hfull (hw.pivotRow?_later (by omega) hlater) ?_
      exact ih (by omega) ht (placed_succ hplaced hlater)

variable {m : Type → Type} [Monad m] [LawfulMonad m] {α : Type} [Zero α] [Arithmetic m α]
  {cell : Rat → α}

theorem Swept.implicit_eq (h : Exact m cell) (hw : Swept w pivots limit)
    (hlimit : limit ≤ w.width) :
    implicit (m := m) (w.map cell) limit = pure ⟨w.map cell, pivots⟩ := by
  have hsweep := hw.sweep_self (Nat.zero_add limit) (Nat.zero_le _) (by simp)
  rw [List.take_zero, ← List.range_eq_range'] at hsweep
  exact hsweep.reduceAlong_map h fun c hc => (List.mem_range.1 hc).trans_le hlimit

def inOrder (pivots : List (Nat × Nat)) : List (Nat × Nat) :=
  pivots.mapIdx fun i q => (i, q.2)

theorem fst_inOrder {i : Nat} (hi : i < (inOrder pivots).length) : (inOrder pivots)[i].1 = i := by
  simp [inOrder]

theorem mem_inOrder {q : Nat × Nat} :
    q ∈ inOrder pivots ↔ ∃ i, ∃ hi : i < pivots.length, (i, pivots[i].2) = q :=
  List.mem_mapIdx

/-- The rows of a swept grid, once arranged, are swept with their pivots in order. -/
theorem Arranged.swept (h : Arranged w e σ pivots pivots.length swaps)
    (hw : Swept w pivots limit) (hn : w.height = n) (hlimit : limit ≤ w.width) :
    Swept e (inOrder pivots) limit := by
  have hle : pivots.length ≤ n := hw.length_le.trans_eq hn
  have hcell : ∀ i, ∀ hi : i < pivots.length, ∀ j < w.width,
      e.cell i j = w.cell pivots[i].1 j := by
    intro i hi j hj
    rw [h.cell ⟨i, hi.trans_le hle⟩ j hj, h.placed ⟨i, hi.trans_le hle⟩ hi hi]
    rfl
  have hcol : ∀ i, ∀ hi : i < pivots.length, pivots[i].2 < w.width := fun i hi =>
    (hw.col_lt _ (List.getElem_mem hi)).trans_le hlimit
  have hall : ∀ {p : Nat × Nat → Prop}, (∀ i, ∀ hi : i < pivots.length, p (i, pivots[i].2)) →
      ∀ q ∈ inOrder pivots, p q := by
    intro p hp q hq
    obtain ⟨i, hi, rfl⟩ := mem_inOrder.1 hq
    exact hp i hi
  exact
    { row_lt := by
        rw [h.height]
        exact hall fun i hi => hi.trans_le hle
      col_lt := hall fun i hi => hw.col_lt pivots[i] (List.getElem_mem hi)
      nodup := by
        have hrows : (inOrder pivots).map Prod.fst = List.range pivots.length :=
          List.ext_getElem (by simp [inOrder]) (by simp [inOrder])
        exact hrows ▸ List.nodup_range
      ascending := by
        have hcols : (inOrder pivots).map Prod.snd = pivots.map Prod.snd :=
          List.ext_getElem (by simp [inOrder]) (by simp [inOrder])
        exact hcols ▸ hw.ascending
      ne_zero := hall fun i hi => by
        rw [hcell i hi _ (hcol i hi)]
        exact hw.ne_zero _ (List.getElem_mem hi)
      alone := by
        rw [h.height]
        refine hall fun i hi k hk hki => ?_
        rw [h.cell ⟨k, hk⟩ _ (hcol i hi)]
        refine hw.alone _ (List.getElem_mem hi) _ (hn ▸ (σ ⟨k, hk⟩).isLt) fun hrow => hki ?_
        have hplaced := h.placed ⟨i, hi.trans_le hle⟩ hi hi
        exact congrArg Fin.val (σ.injective (Fin.ext (hrow.trans hplaced.symm)))
      leading := hall fun i hi j hj => by
        rw [hcell i hi j (hj.trans (hcol i hi))]
        exact hw.leading _ (List.getElem_mem hi) j hj
      blank := by
        intro i hi j hj
        rw [h.height] at hi
        obtain ⟨hi, hfree⟩ := mem_freeRows.1 hi
        have hlast : pivots.length ≤ i := not_lt.1 fun hlt =>
          hfree _ (mem_inOrder.2 ⟨i, hlt, rfl⟩) rfl
        rw [h.cell ⟨i, hi⟩ j (hj.trans_le hlimit)]
        rcases h.free_or_pivot (i := ⟨i, hi⟩) hlast with hfree | ⟨k, hk, hlek, -⟩
        · exact hw.blank _ (hn ▸ hfree) j hj
        · exact absurd hk (not_lt.2 hlek) }

/-- With the pivot rows in their places the second pass swaps nothing. -/
theorem echelonAlong_self (swaps : Nat) (hw : Swept w (inOrder pivots) limit) (hn : w.height = n)
    (hlimit : limit ≤ w.width) {k : Nat} (hck : c + k = limit)
    (h : Arranged w w (1 : Equiv.Perm (Fin n)) (inOrder pivots) t 0)
    (hplaced : ∀ i, ∀ hi : i < (inOrder pivots).length, i < t ↔ (inOrder pivots)[i].2 < c) :
    echelonAlong Id w t swaps (List.range' c k) = (w, swaps) := by
  induction k generalizing t c with
  | zero => rfl
  | succ k ih =>
    rw [List.range'_succ, echelonAlong]
    by_cases hfull : w.height ≤ t
    · exact if_pos hfull
    rw [if_neg hfull, hn]
    by_cases hnext : ∃ ht : t < (inOrder pivots).length, (inOrder pivots)[t].2 = c
    · obtain ⟨ht, hc⟩ := hnext
      obtain ⟨row, hfind, -, hrow⟩ := h.exists_pivotRow hw hn hlimit ht hc
      have hplace : (row : Nat) = t := hrow.trans (fst_inOrder ht)
      rw [hfind]
      dsimp only
      rw [if_pos hplace]
      subst hplace
      exact ih (by omega) (h.keep ht row.isLt hrow) (hw.lt_succ_iff ht hc)
    · have hlater := hw.later hplaced hnext
      rw [h.pivotRow?_eq_none hw hn hlimit (by omega) hlater]
      exact ih (by omega) h (placed_succ hplaced hlater)

theorem Arranged.explicit_eq (h : Exact m cell)
    (hσ : Arranged w e σ pivots pivots.length swaps) (hw : Swept w pivots limit)
    (hn : w.height = n) (hlimit : limit ≤ w.width) :
    explicit (m := m) (e.map cell) limit = pure (e.map cell, 0) := by
  have he := hσ.swept hw hn hlimit
  have hwidth : limit ≤ e.width := hσ.width.symm ▸ hlimit
  have hcols : ∀ c ∈ List.range limit, c < e.width := fun c hc =>
    (List.mem_range.1 hc).trans_le hwidth
  have hpass := echelonAlong_self 0 he hσ.height hwidth (Nat.zero_add limit)
    (.refl hσ.height) (by simp)
  rw [← List.range_eq_range'] at hpass
  rw [explicit, he.implicit_eq h hwidth, pure_bind,
    (sameZeros_exact h _).echelonAlong_eq rfl hcols, hpass]

end Reduction

namespace MatrixSource

variable {h w : Nat}

theorem workspace_array {g : Grid Rat} (hh : g.height = h) (hw : g.width = w) (inPlace : Bool) :
    (array (g.matrix h w)).workspace inPlace = .ok (.values (g.map .fraction)) := by
  rw [array, workspace_ofMatrix, Grid.ofMatrix_matrix hh hw]

/-- What either pass makes of a matrix it gives back unchanged, with the same pivots and without a
swap. -/
theorem reduce_idempotent (a : Matrix (Fin h) (Fin w) Rat) (cols : Option Int)
    (inPlace again : Bool) :
    ∃ (s r : Matrix (Fin h) (Fin w) Rat) (pivots : List (Nat × Nat)) (swaps : Nat),
      (array a).implicitReduce (cols.map .int) inPlace = .ok (rowLists (s.map .fraction)) ∧
      (array a).pivots (cols.map .int) inPlace = .ok pivots ∧
      (array s).implicitReduce (cols.map .int) again = .ok (rowLists (s.map .fraction)) ∧
      (array s).pivots (cols.map .int) again = .ok pivots ∧
      (array a).explicitReduce (cols.map .int) inPlace =
        .ok (rowLists (r.map .fraction), swaps) ∧
      (array r).explicitReduce (cols.map .int) again = .ok (rowLists (r.map .fraction), 0) := by
  obtain ⟨g, hh, rfl, rfl, hwork⟩ := exists_workspace a
  have hlimit := pivotLimit_le cols g.width
  obtain ⟨s, hsweep, hswept, hs⟩ := Reduction.exists_implicit Arithmetic.exact_fraction hlimit
  have hheight := hsweep.height.trans hh
  have hwidth := hsweep.width
  have hlimit' : pivotLimit cols g.width ≤ s.grid.width := hwidth.symm ▸ hlimit
  obtain ⟨e, swaps, σ, hσ, hexplicit⟩ := Reduction.exists_explicit_of_implicit
    Arithmetic.exact_fraction hheight hlimit' hswept hs
  have hagain := hswept.implicit_eq Arithmetic.exact_fraction hlimit'
  have hstays := hσ.explicit_eq Arithmetic.exact_fraction hswept hheight hlimit'
  have hworkSwept := workspace_array hheight hwidth again
  have hworkEchelon := workspace_array hσ.height (hσ.width.trans hwidth) again
  refine ⟨s.grid.matrix h g.width, e.matrix h g.width, s.pivots, swaps, ?_, ?_, ?_, ?_, ?_, ?_⟩
  · rw [← Grid.toLists_map hheight hwidth]
    exact implicitReduce_of_workspace cols (hwork inPlace) hs
  · exact pivots_of_workspace cols (hwork inPlace) hs
  · rw [← Grid.toLists_map hheight hwidth]
    exact implicitReduce_of_workspace cols hworkSwept (hwidth.symm ▸ hagain)
  · exact pivots_of_workspace cols hworkSwept (hwidth.symm ▸ hagain)
  · rw [← Grid.toLists_map hσ.height (hσ.width.trans hwidth)]
    exact explicitReduce_of_workspace cols (hwork inPlace) hexplicit
  · rw [← Grid.toLists_map hσ.height (hσ.width.trans hwidth)]
    exact explicitReduce_of_workspace cols hworkEchelon ((hσ.width.trans hwidth).symm ▸ hstays)

end MatrixSource

end TwoPhase
