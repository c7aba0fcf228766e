import TwoPhase.Proofs.Infeasibility
import TwoPhase.Proofs.Visits

/-!
The helper row in closed form, over the rationals: at every state of the first phase it is the sum
of the rows that artificial variables own, less one in the columns that artificial variables own.
This holds also after an artificial variable has entered again. It follows from the equations
alone: on their solutions the helper row gives the sum of the artificial variables, and these are
shared out to rows and columns.
-/
namespace TwoPhase

open Finset Tableau

theorem sum_map_varRange (first count : Nat) (u : Int → Rat) :
    ((varRange first count).map u).sum = ∑ k ∈ range count, u (first + k) := by
  rw [← sum_range_getD (varRange first count) 0 u, length_varRange]
  refine sum_congr rfl fun k hk => ?_
  simp [varRange, mem_range.1 hk]

namespace Tableau

variable {t : Tableau Rat}

theorem sum_map_labels (t : Tableau Rat) (u : Int → Rat) :
    (t.labels.map u).sum =
      ∑ i ∈ range t.constraintRows, u (t.rowVar i) + ∑ j ∈ range t.rhsCol, u (t.colVar j) := by
  rw [labels, List.map_append, List.sum_append, ← sum_range_getD t.basis 0 u,
    ← sum_range_getD t.nonbasis 0 u]
  rfl

theorem sum_above {a b : Nat} (h : t.labels.Perm (varRange 1 (a + b))) (v : Int → Rat) :
    ∑ k ∈ range b, v (a + 1 + k) =
      (∑ i ∈ range t.constraintRows with (a : Int) < t.rowVar i, v (t.rowVar i)) +
        ∑ j ∈ range t.rhsCol with (a : Int) < t.colVar j, v (t.colVar j) := by
  have hsum := (h.map fun k => if (a : Int) < k then v k else 0).sum_eq
  have hlow : ∑ k ∈ range a, (if (a : Int) < (1 : Nat) + k then v ((1 : Nat) + k) else 0) = 0 := by
    refine sum_eq_zero fun k hk => if_neg ?_
    have hk := mem_range.1 hk
    omega
  have hhigh (k : Nat) : (if (a : Int) < (1 + a : Nat) + k then v ((1 + a : Nat) + k) else 0) =
      v (a + 1 + k) := by
    rw [if_pos (by omega)]
    congr 1
    omega
  rw [sum_map_labels, ← varRange_append, List.map_append, List.sum_append, sum_map_varRange,
    sum_map_varRange, hlow, zero_add, sum_congr rfl fun k _ => hhigh k] at hsum
  rw [sum_filter, sum_filter]
  exact hsum.symm

end Tableau

section FirstPhase

variable {p : LinearProgram Rat} {t : Tableau Rat} (h : Reaches (phaseOne p) t)
include h

/-- The helper row in terms of the variables of the columns. -/
theorem first_rowValue (u : Int → Rat) :
    t.rowValue u t.constraintRows =
      (∑ i ∈ range t.constraintRows with (p.threshold : Int) < t.rowVar i, t.rowValue u i) +
        ∑ j ∈ range t.rhsCol with (p.threshold : Int) < t.colVar j, u (t.colVar j) := by
  have hn := first_labels_nodup h
  have hhelper := first_helper h (first_point h u)
  rw [rowValue_point hn, sum_above (first_labels_perm h)] at hhelper
  rw [hhelper]
  congr 1
  · refine sum_congr rfl fun i hi => ?_
    exact point_rowVar hn u (mem_range.1 (mem_filter.1 hi).1)
  · refine sum_congr rfl fun j hj => ?_
    exact point_colVar hn u (mem_range.1 (mem_filter.1 hj).1)

theorem first_rhs_helper :
    t.rhs t.constraintRows =
      ∑ i ∈ range t.constraintRows with (p.threshold : Int) < t.rowVar i, t.rhs i := by
  have hzero := first_rowValue h fun _ => 0
  rw [rowValue_zero, sum_const_zero, add_zero] at hzero
  rw [hzero]
  exact sum_congr rfl fun i _ => rowValue_zero t i

theorem first_cell_helper {j : Nat} (hj : j < t.rhsCol) :
    t.cells.cell t.constraintRows j =
      (∑ i ∈ range t.constraintRows with (p.threshold : Int) < t.rowVar i, t.cells.cell i j) -
        if (p.threshold : Int) < t.colVar j then 1 else 0 := by
  have hn := first_labels_nodup h
  -- one unit of the variable of the column
  have hunit := first_rowValue h fun k => if k = t.colVar j then 1 else 0
  have hcol : (∑ k ∈ range t.rhsCol with (p.threshold : Int) < t.colVar k,
      if t.colVar k = t.colVar j then (1 : Rat) else 0) =
      if (p.threshold : Int) < t.colVar j then 1 else 0 := by
    rw [sum_filter, sum_eq_single j]
    · simp
    · intro k hk hkj
      rw [if_neg (mt (colVar_inj hn (mem_range.1 hk) hj).1 hkj), ite_self]
    · exact fun hnot => absurd (mem_range.2 hj) hnot
  have hrow : ∀ i ∈ {i ∈ range t.constraintRows | (p.threshold : Int) < t.rowVar i},
      t.rowValue (fun k => if k = t.colVar j then 1 else 0) i = t.rhs i - t.cells.cell i j :=
    fun i _ => by rw [rowValue_single hn hj, mul_one]
  rw [rowValue_single hn hj, mul_one, hcol, sum_congr rfl hrow, sum_sub_distrib,
    ← first_rhs_helper h] at hunit
  linarith

end FirstPhase

namespace Solver

variable {κ : Type} {setting : Setting Rat κ} {options : Options} {p : LinearProgram Rat}
  {left : Nat} {seen : List κ} {t : Tableau Rat}

/-- At every state of the first phase the helper row is the sum of the rows of the basic artificial
variables, less one in the column of an artificial variable, so it ends in zero once none of them
is basic. With nonnegative right-hand sides it ends in zero where no column improves if and only
if the program is feasible. -/
theorem helper_row_of_visits (h : Visits setting options p 1 left seen t) :
    (∀ j < t.rhsCol, t.cells.cell t.constraintRows j =
      (∑ i ∈ range t.constraintRows with (p.threshold : Int) < t.rowVar i, t.cells.cell i j) -
        if (p.threshold : Int) < t.colVar j then 1 else 0) ∧
    t.cells.cell t.constraintRows t.rhsCol =
      (∑ i ∈ range t.constraintRows with (p.threshold : Int) < t.rowVar i,
        t.cells.cell i t.rhsCol) ∧
    ((∀ k ∈ t.basis, k ≤ (p.threshold : Int)) → t.cells.cell t.constraintRows t.rhsCol = 0) ∧
    ((∀ a ∈ p.upper.rhs, 0 ≤ a) → (∀ a ∈ p.equal.rhs, 0 ≤ a) →
      t.selectPivot t.constraintRows = .ok none →
        (t.cells.cell t.constraintRows t.rhsCol = 0 ↔ ∃ x, p.Feasible x)) := by
  have hrhs := first_rhs_helper h.first
  refine ⟨fun j hj => first_cell_helper h.first hj, hrhs, fun hbasis => ?_, ?_⟩
  · refine hrhs.trans (sum_eq_zero fun i hi => ?_)
    obtain ⟨hi, hlt⟩ := mem_filter.1 hi
    exact absurd (hbasis _ (rowVar_mem (mem_range.1 hi))) (not_le.2 hlt)
  · intro hb hb' hchoice
    have hhalt : t.Halted none := (selectPivot_eq_ok_iff h.hasObjective).1 hchoice
    exact objective_eq_zero_iff hb hb' h.first hhalt

/-- A row twice with two right-hand sides: the first artificial variable has left its row and owns
the column, the second stays, and the program is infeasible. -/
theorem helper_row_of_contrary_rows :
    let p := LinearProgram.ofRows 1 [] [] [([1], 1), ([1], 2)]
    let t := ((phaseOne p).pivot 0 0).1
    Visits Setting.exact {} p 1 7 [(phaseOne p).cells.toLists] t ∧
      t.basis = [1, 3] ∧ t.nonbasis = [2] ∧
      t.cells.cell 2 0 = t.cells.cell 1 0 - 1 ∧ t.cells.cell 2 1 = t.cells.cell 1 1 ∧
      ¬∃ x, p.Feasible x := by
  intro p t
  have hchoice : (phaseOne p).selectPivot (phaseOne p).constraintRows = .ok (some ⟨some 0, 0⟩) := by
    decide +kernel
  have hvisit : Visits Setting.exact {} p 1 7 [(phaseOne p).cells.toLists] t :=
    .pivot .start hchoice List.not_mem_nil
  have hrows : t.constraintRows = 2 := by decide +kernel
  have hcols : t.rhsCol = 1 := by decide +kernel
  have hart : {i ∈ range 2 | (p.threshold : Int) < t.rowVar i} = {1} := by decide +kernel
  have hhelper : t.cells.cell 2 1 ≠ 0 := by decide +kernel
  obtain ⟨hcell, hrhs, -, hverdict⟩ := helper_row_of_visits hvisit
  have hcell := hcell 0 (by decide +kernel)
  have hverdict := hverdict (by decide +kernel) (by decide +kernel) (by decide +kernel)
  rw [hrows, hart, sum_singleton] at hcell hrhs
  rw [hrows, hcols] at hverdict
  rw [hcols] at hrhs
  refine ⟨hvisit, by decide +kernel, by decide +kernel, ?_, hrhs, mt hverdict.2 hhelper⟩
  rw [hcell, if_pos (by decide +kernel)]

end Solver

end TwoPhase
