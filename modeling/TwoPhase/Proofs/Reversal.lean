import TwoPhase.Proofs.PathIndependence

/-!
Pivoting over the rationals can be undone. The pivot cell comes to hold the inverse of what it held,
so the same cell can be pivoted at again, and this restores all cells and both lists. Nothing is
assumed of the shape or of the variables.
-/
namespace TwoPhase

namespace Tableau

variable {t : Tableau Rat} {r c : Nat}

theorem pivotal_iff : t.Pivotal r c ↔
    r < t.constraintRows ∧ c < t.rhsCol ∧ t.cells.cell r c ≠ 0 :=
  ⟨fun h => ⟨h.row, h.col, isZero_eq_false_iff.1 h.isZero⟩,
    fun h => ⟨h.1, h.2.1, isZero_eq_false_iff.2 h.2.2⟩⟩

theorem Pivotal.cell_ne_zero (h : t.Pivotal r c) : t.cells.cell r c ≠ 0 := (pivotal_iff.1 h).2.2

theorem Pivotal.cell_exchange (h : t.Pivotal r c) :
    (t.exchange r c).cells.cell r c = 1 / t.cells.cell r c := by
  rw [t.cell_exchange r c h.row_lt_height h.col.le, if_pos rfl, if_pos rfl]

/-- The pivot cell stays pivotal. -/
theorem Pivotal.exchange (h : t.Pivotal r c) : (t.exchange r c).Pivotal r c := by
  rw [pivotal_iff, constraintRows_exchange, rhsCol_exchange, h.cell_exchange]
  exact ⟨h.row, h.col, one_div_ne_zero h.cell_ne_zero⟩

theorem cells_exchange_exchange (h : t.Pivotal r c) :
    ((t.exchange r c).exchange r c).cells = t.cells := by
  have hp := h.cell_ne_zero
  have hr := h.row_lt_height
  have hwidth : t.cells.width = t.rhsCol + 1 := t.width_cells
  refine Grid.ext_cell (by simp) rfl fun i j hi hj => ?_
  replace hi : i < t.cells.height := by simpa using hi
  replace hj : j ≤ t.rhsCol := Nat.le_of_lt_succ (hj.trans_eq hwidth)
  have hold {i' j' : Nat} (hi' : i' < t.cells.height) (hj' : j' ≤ t.rhsCol) :=
    t.cell_exchange r c hi' hj'
  rw [Tableau.cell_exchange _ r c (by simpa using hi) (by simpa using hj), h.cell_exchange]
  -- what each of the four kinds of cells became, and becomes again
  by_cases hir : i = r
  · subst hir
    by_cases hjc : j = c
    · subst hjc
      rw [if_pos rfl, if_pos rfl, one_div_one_div]
    · rw [if_pos rfl, if_neg hjc, hold hi hj, if_pos rfl, if_neg hjc]
      field_simp
  · by_cases hjc : j = c
    · subst hjc
      rw [if_neg hir, if_pos rfl, hold hi hj, if_neg hir, if_pos rfl]
      field_simp
    · rw [if_neg hir, if_neg hjc, hold hi hj, hold hi h.col.le, hold hr hj, if_neg hir, if_neg hjc,
        if_neg hir, if_pos rfl, if_pos rfl, if_neg hjc]
      field_simp
      ring

theorem exchange_exchange (h : t.Pivotal r c) : (t.exchange r c).exchange r c = t := by
  have hr : r < t.basis.length := h.row
  have hc : c < t.nonbasis.length := h.col
  refine Tableau.ext (cells_exchange_exchange h) ?_ ?_
  · change (t.basis.set r (t.colVar c)).set r ((t.exchange r c).colVar c) = t.basis
    rw [t.colVar_exchange h.col, if_pos rfl, List.set_set, rowVar, List.getElem?_eq_getElem hr,
      Option.getD_some, List.set_getElem_self]
  · change (t.nonbasis.set c (t.rowVar r)).set c ((t.exchange r c).rowVar r) = t.nonbasis
    rw [t.rowVar_exchange h.row, if_pos rfl, List.set_set, colVar, List.getElem?_eq_getElem hc,
      Option.getD_some, List.set_getElem_self]

theorem Pivotal.pivot_eq_exchange (h : t.Pivotal r c) : t.pivot r c = (t.exchange r c, none) :=
  t.pivot_eq_exchange h.row h.row_lt_height h.col h.isZero

/-- A pivot leaves a nonzero value in its cell, and a second pivot there restores the tableau. -/
theorem pivot_pivot (t : Tableau Rat) {r c : Nat} (hr : r < t.constraintRows) (hc : c < t.rhsCol)
    (hcell : t.cells.cell r c ≠ 0) :
    ∃ t', t.pivot r c = (t', none) ∧ t'.cells.cell r c ≠ 0 ∧ t'.pivot r c = (t, none) := by
  have h : t.Pivotal r c := pivotal_iff.2 ⟨hr, hc, hcell⟩
  refine ⟨t.exchange r c, h.pivot_eq_exchange, h.exchange.cell_ne_zero, ?_⟩
  rw [h.exchange.pivot_eq_exchange, exchange_exchange h]

/-- A negative pivot cell, with an objective row below it. -/
theorem pivot_pivot_negative :
    let t : Tableau Rat :=
      { cells := Grid.ofFn 3 3 fun i j =>
          ([[2, 1, 3], [-4, 1, 4], [1, 3, 0]][i]?.getD [])[j]?.getD 0
        basis := [3, 4]
        nonbasis := [1, 2]
        width_cells := rfl }
    1 < t.constraintRows ∧ 0 < t.rhsCol ∧ t.cells.cell 1 0 ≠ 0 ∧
      ∃ t', t.pivot (1 : Nat) (0 : Nat) = (t', none) ∧ t'.basis = [3, 1] ∧ t'.nonbasis = [4, 2] ∧
        t'.cells.toLists = [[1 / 2, 3 / 2, 5], [-1 / 4, -1 / 4, -1], [1 / 4, 13 / 4, 1]] ∧
        t'.pivot (1 : Nat) (0 : Nat) = (t, none) := by
  intro t
  have hr : 1 < t.constraintRows := by decide
  have hc : 0 < t.rhsCol := by decide
  have hcell : t.cells.cell 1 0 ≠ 0 := by decide +kernel
  obtain ⟨t', hpivot, -, hback⟩ := t.pivot_pivot hr hc hcell
  have hlists : (t.pivot (1 : Nat) (0 : Nat)).1.basis = [3, 1] ∧
      (t.pivot (1 : Nat) (0 : Nat)).1.nonbasis = [4, 2] ∧
      (t.pivot (1 : Nat) (0 : Nat)).1.cells.toLists =
        [[1 / 2, 3 / 2, 5], [-1 / 4, -1 / 4, -1], [1 / 4, 13 / 4, 1]] := by decide +kernel
  rw [hpivot] at hlists
  exact ⟨hr, hc, hcell, t', hpivot, hlists.1, hlists.2.1, hlists.2.2, hback⟩

end Tableau

end TwoPhase
