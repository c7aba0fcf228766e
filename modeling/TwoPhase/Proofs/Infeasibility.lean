import TwoPhase.Proofs.Representation

/-!
The end of the first phase with nonnegative right-hand sides. The helper row holds the least sum of
the artificial variables, so it is zero if and only if the program is feasible. A solve also calls
a program infeasible whose artificial variables are zero while one of them is basic; there the
values read off are a feasible point.
-/
namespace TwoPhase

open Tableau Finset

section FirstPhase

variable {p : LinearProgram Rat} {t : Tableau Rat}

theorem first_basicValue (h : Reaches (phaseOne p) t) : (phaseOne p).Holds t.basicValue := by
  rw [basicValue_eq_point]
  exact first_point h _

theorem first_objective (h : Reaches (phaseOne p) t) :
    t.objective = ∑ k ∈ range p.equalityRows, t.basicValue (p.threshold + 1 + k) := by
  rw [← first_helper h (first_basicValue h), rowValue_basicValue (first_labels_nodup h)]
  rfl

/-- If an artificial variable is basic, fewer variables of a program than rows are not zero. -/
theorem countP_basicValue_lt (h : Reaches (phaseOne p) t)
    (hbasis : ∃ k ∈ t.basis, (p.threshold : Int) < k) :
    (tabulate p.threshold t.basicValue).countP (· ≠ 0) < p.constraintRows := by
  obtain ⟨k, hk, hlt⟩ := hbasis
  have hlow : (t.basis.filter (· ≤ (p.threshold : Int))).length < p.constraintRows := by
    rw [← first_constraintRows h]
    exact List.length_filter_lt_length_iff_exists.2 ⟨k, hk, by simpa using hlt⟩
  have hsub : ((varRange 1 p.threshold).filter fun k => t.basicValue k ≠ 0) ⊆
      t.basis.filter (· ≤ (p.threshold : Int)) := by
    intro j hj
    obtain ⟨hmem, hne⟩ := List.mem_filter.1 hj
    have hrange := mem_varRange.1 hmem
    refine List.mem_filter.2 ⟨?_, by simp only [decide_eq_true_eq]; omega⟩
    by_contra hnot
    simp [basicValue, List.idxOf?_eq_none_iff.2 hnot] at hne
  have hle := (((nodup_varRange 1 p.threshold).filter _).subperm hsub).length_le
  rw [← map_varRange, List.countP_map, List.countP_eq_length_filter]
  exact hle.trans_lt hlow

/-- If the helper row is zero but the tableau is not cleared, an artificial variable is basic. -/
theorem exists_basic_artificial (h0 : t.objective = 0) (hclear : ¬Cleared p t) :
    ∃ k ∈ t.basis, (p.threshold : Int) < k := by
  by_contra hnone
  push Not at hnone
  exact hclear ⟨by simp [h0, Cell.isZero], hnone⟩

variable (hb : ∀ a ∈ p.upper.rhs, 0 ≤ a) (hb' : ∀ a ∈ p.equal.rhs, 0 ≤ a)
  (h : Reaches (phaseOne p) t)
include hb hb' h

theorem first_basicValue_nonneg (k : Int) : 0 ≤ t.basicValue k :=
  basicValue_nonneg (first_labels_nodup h) (fun _ => first_rhs_nonneg hb hb' h) k

theorem first_objective_nonneg : 0 ≤ t.objective := by
  rw [first_objective h]
  exact sum_nonneg fun k _ => first_basicValue_nonneg hb hb' h _

theorem artificial_eq_zero (h0 : t.objective = 0) {i : Nat} (hi : i < p.equalityRows) :
    t.basicValue (p.threshold + 1 + i) = 0 := by
  rw [first_objective h, sum_eq_zero_iff_of_nonneg fun k _ =>
    first_basicValue_nonneg hb hb' h _] at h0
  exact h0 i (mem_range.2 hi)

theorem first_feasible (h0 : t.objective = 0) :
    p.Feasible (tabulate p.numCosts t.basicValue) :=
  (feasible_tabulate_iff (first_basicValue h)).2
    ⟨fun k _ _ => first_basicValue_nonneg hb hb' h k, fun _ => artificial_eq_zero hb hb' h h0⟩

/-- Where the first phase converges, the helper row decides feasibility. -/
theorem objective_eq_zero_iff (hhalt : t.Halted none) :
    t.objective = 0 ↔ ∃ x, p.Feasible x := by
  refine ⟨fun h0 => ⟨_, first_feasible hb hb' h h0⟩, fun ⟨x, hx⟩ => ?_⟩
  have hhelper : t.rowValue (p.extension x) t.constraintRows = 0 := by
    rw [first_helper h (holds_extension p x)]
    exact sum_eq_zero fun k _ => (extension_of_feasible hx).2 _ (by omega)
  have hle := objective_le_rowValue (first_labels_perm h) hhalt hx
  exact le_antisymm (hle.trans_eq hhelper) (first_objective_nonneg hb hb' h)

theorem exists_zero_artificial (h0 : t.objective = 0)
    (hbasis : ∃ k ∈ t.basis, (p.threshold : Int) < k) :
    ∃ i < p.constraintRows, (p.threshold : Int) < t.rowVar i ∧ t.rhs i = 0 := by
  obtain ⟨k, hk, hlt⟩ := hbasis
  obtain ⟨i, hi, rfl⟩ := exists_rowVar hk
  have hlabel := (mem_of_labels_perm (first_labels_perm h)).1 (List.mem_append_left _ hk)
  obtain ⟨j, hj, hvar⟩ := p.exists_artificial hlt (by omega)
  refine ⟨i, first_constraintRows h ▸ hi, hlt, ?_⟩
  rw [← basicValue_rowVar (first_labels_nodup h) hi, ← hvar]
  exact artificial_eq_zero hb hb' h h0 hj

end FirstPhase

namespace Solver

variable {κ : Type} [DecidableEq κ] {setting : Setting Rat κ} {options : Options}
  {p : LinearProgram Rat}

/-- A program with nonnegative right-hand sides is called infeasible only after the first phase
has converged. Either it is infeasible and the helper row is not zero, or the helper row is zero
and an artificial variable is basic at zero. In the latter case there is a feasible point, a
degenerate one. -/
theorem infeasible_cases (hb : ∀ a ∈ p.upper.rhs, 0 ≤ a) (hb' : ∀ a ∈ p.equal.rhs, 0 ≤ a)
    {phase : Nat} (h : outcome setting options p = .ok (.failed .infeasible phase)) :
    phase = 1 ∧ ∃ one, FirstRun setting options p one ∧ one.tableau.Halted none ∧
      (one.tableau.objective ≠ 0 ∧ (¬∃ x, p.Feasible x) ∨
        one.tableau.objective = 0 ∧
          (∃ i < p.constraintRows,
            (p.threshold : Int) < one.tableau.rowVar i ∧ one.tableau.rhs i = 0) ∧
          ∃ x, p.Feasible x ∧ (x ++ p.slacks x).countP (· ≠ 0) < p.constraintRows) := by
  obtain ⟨rfl, one, hone, hhalt, hclear⟩ := infeasible_course h
  have hreach := hone.reaches.1
  have hiff := objective_eq_zero_iff hb hb' hreach hhalt
  refine ⟨rfl, one, hone, hhalt, ?_⟩
  by_cases h0 : one.tableau.objective = 0
  · have hbasis := exists_basic_artificial h0 hclear
    refine .inr ⟨h0, exists_zero_artificial hb hb' hreach h0 hbasis, _,
      first_feasible hb hb' hreach h0, ?_⟩
    rw [append_slacks (first_basicValue hreach)]
    exact countP_basicValue_lt hreach hbasis
  · exact .inl ⟨h0, mt hiff.2 h0⟩

/-- A row twice: the program is feasible and called infeasible. -/
theorem infeasible_repeated_row :
    let p := LinearProgram.ofRows 1 [] [] [([1], 1), ([1], 1)]
    (∀ a ∈ p.upper.rhs, 0 ≤ a) ∧ (∀ a ∈ p.equal.rhs, 0 ≤ a) ∧
      outcome Setting.exact {} p = .ok (.failed .infeasible 1) ∧ p.Feasible [1] := by
  refine ⟨by decide +kernel, by decide +kernel, by decide +kernel, rfl, by simp, ?_, ?_⟩
  · decide +kernel
  · decide +kernel

/-- A row twice with two right-hand sides: the first phase ends with one as the least sum. -/
theorem infeasible_contrary_rows :
    let p := LinearProgram.ofRows 1 [] [] [([1], 1), ([1], 2)]
    outcome Setting.exact {} p = .ok (.failed .infeasible 1) ∧ ¬∃ x, p.Feasible x := by
  intro p
  have h : outcome Setting.exact {} p = .ok (.failed .infeasible 1) := by decide +kernel
  have hrun : (runPhase Setting.exact false 1 8 0 [] (phaseOne p)).map (·.tableau.objective) =
      .ok 1 := by decide +kernel
  obtain ⟨-, one, hone, -, hcase⟩ :=
    infeasible_cases (by decide +kernel) (by decide +kernel) h
  have hobj : one.tableau.objective = 1 := by
    rw [show runPhase Setting.exact false 1 8 0 [] (phaseOne p) = .ok one from hone] at hrun
    exact Except.ok.inj hrun
  rcases hcase with ⟨-, hnone⟩ | ⟨h0, -⟩
  · exact ⟨h, hnone⟩
  · rw [hobj] at h0
    exact absurd h0 one_ne_zero

end Solver

end TwoPhase
