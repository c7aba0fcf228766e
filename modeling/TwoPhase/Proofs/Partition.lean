import TwoPhase.Proofs.Feasibility
import TwoPhase.Proofs.Visits

/-!
Rows and columns share out the variables at every state of a solve and in every recorded step. In
the first phase these are all variables, in the second those that are not artificial. The rows
keep their number, so the second phase has as many columns less as there are equalities, and none
is reached that has more equalities than variables. Nothing is assumed of the arithmetic.
-/
namespace TwoPhase

open Tableau

variable {α κ : Type} [Cell α]

/-- Rows and columns share out the variables from one to `count`. -/
structure Partition (count rows cols : Nat) (basis nonbasis : List Int) : Prop where
  perm : (basis ++ nonbasis).Perm (varRange 1 count)
  length_basis : basis.length = rows
  length_nonbasis : nonbasis.length = cols

section States

variable {p : LinearProgram α} {t : Tableau α}

omit [Cell α] in
theorem length_nonbasis_of_perm {count : Nat} (h : t.labels.Perm (varRange 1 count)) :
    t.constraintRows + t.nonbasis.length = count := by
  have hlen := h.length_eq
  rwa [labels, List.length_append, length_varRange] at hlen

theorem first_partition (h : Reaches (phaseOne p) t) :
    Partition p.numVariables p.constraintRows p.numCosts t.basis t.nonbasis := by
  have hperm := first_labels_perm h
  have hrows := first_constraintRows h
  refine ⟨hperm, hrows, ?_⟩
  have hcount := length_nonbasis_of_perm hperm
  rw [hrows, LinearProgram.constraintRows, LinearProgram.threshold] at hcount
  omega

/-- The rows of the second phase are owned by variables that are not artificial, so there are no
more equalities than variables. -/
theorem SecondState.length_nonbasis (h : SecondState p t) :
    t.nonbasis.length + p.equalityRows = p.numCosts := by
  have hcount := length_nonbasis_of_perm (second_labels_perm h)
  rw [h.constraintRows, LinearProgram.constraintRows, LinearProgram.threshold] at hcount
  omega

theorem second_partition (h : SecondState p t) :
    Partition p.threshold p.constraintRows (p.numCosts - p.equalityRows) t.basis t.nonbasis := by
  refine ⟨second_labels_perm h, h.constraintRows, ?_⟩
  have hcols := h.length_nonbasis
  omega

theorem SecondState.width (h : SecondState p t) :
    t.cells.width = p.numCosts - p.equalityRows + 1 := by
  rw [t.width_cells, (second_partition h).length_nonbasis]

end States

namespace Solver

variable {setting : Setting α κ} {options : Options} {p : LinearProgram α} {phase left : Nat}
  {seen : List κ} {t : Tableau α}

theorem Visits.partition (h : Visits setting options p phase left seen t) :
    phase = 1 ∧ Partition p.numVariables p.constraintRows p.numCosts t.basis t.nonbasis ∨
      phase = 2 ∧
        Partition p.threshold p.constraintRows (p.numCosts - p.equalityRows) t.basis t.nonbasis ∧
        t.cells.height = p.constraintRows + 1 ∧
        t.cells.width = p.numCosts - p.equalityRows + 1 := by
  rcases h.reached with ⟨hphase, hfirst⟩ | ⟨hphase, hsecond⟩
  · exact .inl ⟨hphase, first_partition hfirst⟩
  · exact .inr ⟨hphase, second_partition hsecond, hsecond.height, hsecond.width⟩

theorem Visits.equalityRows_le (h : Visits setting options p 2 left seen t) :
    p.equalityRows ≤ p.numCosts := by
  have hcols := h.second.length_nonbasis
  omega

variable [DecidableEq κ]

/-- A solve of a program with more equalities than variables fails in the first phase. -/
theorem failed_of_lt (hlt : p.numCosts < p.equalityRows) {report : Report α}
    (h : solve setting options p = .ok report) :
    ∃ reason, report.result.outcome = .failed reason 1 := by
  cases solve_eq_ok_iff.1 h with
  | @first one reason _ _ => exact ⟨reason, rfl⟩
  | infeasible _ _ _ => exact ⟨.infeasible, rfl⟩
  | second hone hstop hclear htwo _ =>
    obtain ⟨⟨left, seen, hvisit⟩, -⟩ := htwo.visits hone hstop hclear
    exact absurd hvisit.equalityRows_le (not_le.2 hlt)
  | optimal hone hstop hclear htwo _ =>
    obtain ⟨⟨left, seen, hvisit⟩, -⟩ := htwo.visits hone hstop hclear
    exact absurd hvisit.equalityRows_le (not_le.2 hlt)

/-- At every state of a solve and in every recorded step the basis and the other variables are a
partition of the variables of the phase. A second phase has `m₁ + m₂ + 1` rows and `n - m₂ + 1`
columns, and there is none if `n < m₂`. -/
theorem partition_of_solve (setting : Setting α κ) (options : Options) (p : LinearProgram α) :
    (∀ phase left seen t, Visits setting options p phase left seen t →
      phase = 1 ∧ Partition p.numVariables p.constraintRows p.numCosts t.basis t.nonbasis ∨
      phase = 2 ∧
        Partition p.threshold p.constraintRows (p.numCosts - p.equalityRows) t.basis t.nonbasis ∧
        t.cells.height = p.constraintRows + 1 ∧
        t.cells.width = p.numCosts - p.equalityRows + 1) ∧
    (∀ report, solve setting options p = .ok report → ∀ s ∈ report.result.steps,
      s.phase = 1 ∧ Partition p.numVariables p.constraintRows p.numCosts s.basis s.nonbasis ∨
      s.phase = 2 ∧
        Partition p.threshold p.constraintRows (p.numCosts - p.equalityRows) s.basis
          s.nonbasis) ∧
    (p.numCosts < p.equalityRows →
      (∀ left seen t, ¬Visits setting options p 2 left seen t) ∧
      ∀ report, solve setting options p = .ok report →
        ∃ reason, report.result.outcome = .failed reason 1) := by
  refine ⟨fun phase left seen t h => h.partition, fun report h s hs => ?_, fun hlt => ⟨?_, ?_⟩⟩
  · obtain ⟨left, seen, t, hvisit, hbasis, hnonbasis⟩ := (recorded_of_solve h s hs).visits
    rw [hbasis, hnonbasis]
    rcases hvisit.partition with hfirst | ⟨hphase, hsecond, -⟩
    · exact .inl hfirst
    · exact .inr ⟨hphase, hsecond⟩
  · intro left seen t hvisit
    exact not_le.2 hlt hvisit.equalityRows_le
  · intro report h
    exact failed_of_lt hlt h

/-- A solve with a pivot in each phase, and a program with more equalities than variables. -/
theorem partition_of_two_pivots :
    let p := LinearProgram.ofRows (-1) [0] [([1, 1], 3)] [([1, -1], 1)]
    let p' := LinearProgram.ofRows 1 [] [] [([1], 1), ([2], 2)]
    (∃ report, solve Setting.exact {} p = .ok report ∧
      report.result.steps.map (·.phase) = [1, 2] ∧ ∀ s ∈ report.result.steps,
        s.phase = 1 ∧ Partition 4 2 2 s.basis s.nonbasis ∨
        s.phase = 2 ∧ Partition 3 2 1 s.basis s.nonbasis) ∧
    p'.numCosts < p'.equalityRows ∧
      ∀ report, solve Setting.exact {} p' = .ok report →
        ∃ reason, report.result.outcome = .failed reason 1 := by
  intro p p'
  have hrun : (solve Setting.exact {} p).map (fun report => report.result.steps.map (·.phase)) =
      .ok [1, 2] := by decide +kernel
  obtain ⟨report, hsolve, hphases⟩ := map_eq_ok hrun
  have hlt : p'.numCosts < p'.equalityRows := by decide +kernel
  refine ⟨⟨report, hsolve, hphases, ?_⟩, hlt, ?_⟩
  · exact (partition_of_solve Setting.exact {} p).2.1 report hsolve
  · exact ((partition_of_solve Setting.exact {} p').2.2 hlt).2

end Solver

end TwoPhase
