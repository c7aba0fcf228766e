import TwoPhase.Proofs.IterationLimit

/-!
The recorded steps as a script for two lists. Each step exchanges one entry of the list of basic
variables with one of the other list, and what it records of the lists is what the exchange gives,
so the steps alone lead from the first lists to the last ones. Between the phases the artificial
variables leave the second list, in place. Nothing is assumed of the arithmetic or of the keys.
-/
namespace TwoPhase

open Tableau

variable {α κ : Type}

/-- A step names an entry of each list and records the lists with the two entries exchanged. -/
structure Step.Exchanges (basis nonbasis : List Int) (s : Step α) : Prop where
  entering : nonbasis[s.col]? = some s.entering
  leaving : basis[s.row]? = some s.leaving
  basis_eq : s.basis = basis.set s.row s.entering
  nonbasis_eq : s.nonbasis = nonbasis.set s.col s.leaving

inductive Replays : List Int → List Int → List (Step α) → List Int → List Int → Prop
  | nil {basis nonbasis : List Int} : Replays basis nonbasis [] basis nonbasis
  | cons {basis nonbasis basis' nonbasis' : List Int} {s : Step α} {rest : List (Step α)}
      (hstep : s.Exchanges basis nonbasis)
      (hrest : Replays s.basis s.nonbasis rest basis' nonbasis') :
      Replays basis nonbasis (s :: rest) basis' nonbasis'

def Step.number (s : Step α) : Nat × Nat := (s.phase, s.iteration)

/-- The steps of a phase: numbered from one to `count`, they lead from two lists to two lists. -/
structure Script (phase count : Nat) (basis nonbasis : List Int) (steps : List (Step α))
    (basis' nonbasis' : List Int) : Prop where
  numbered : steps.map Step.number = (List.range' 1 count).map (phase, ·)
  replays : Replays basis nonbasis steps basis' nonbasis'

theorem Script.length_eq {phase count : Nat} {basis nonbasis basis' nonbasis' : List Int}
    {steps : List (Step α)} (h : Script phase count basis nonbasis steps basis' nonbasis') :
    steps.length = count := by
  have hlength := congrArg List.length h.numbered
  rwa [List.length_map, List.length_map, List.length_range'] at hlength

theorem Script.nil (phase : Nat) (basis nonbasis : List Int) :
    Script phase 0 basis nonbasis ([] : List (Step α)) basis nonbasis :=
  ⟨rfl, .nil⟩

variable [Cell α]

/-- The steps of a result are those of the first phase and those of the second one. The first
phase starts with the slack and artificial variables as the basis, the second one where the first
one ended, with the artificial variables left out. There are none of the second phase if the first
one fails, and a variable that is not in the last basis is zero in a solution. -/
structure Result.ReplayedBy (p : LinearProgram α) (result : Result α)
    (first second : List (Step α)) (basis nonbasis basis' nonbasis' : List Int) : Prop where
  steps_eq : result.steps = first ++ second
  first_script : Script 1 result.iterations.1 (varRange (p.numCosts + 1) p.constraintRows)
    (varRange 1 p.numCosts) first basis nonbasis
  second_script : Script 2 result.iterations.2 basis
    (nonbasis.filter (· ≤ (p.threshold : Int))) second basis' nonbasis'
  second_eq_nil : ∀ reason, result.outcome = .failed reason 1 → second = []
  eq_zero : ∀ x objective, result.outcome = .optimal x objective →
    x.length = p.numCosts ∧ ∀ k < p.numCosts, (k : Int) + 1 ∉ basis' → x[k]? = some 0

theorem Result.ReplayedBy.length_eq {p : LinearProgram α} {result : Result α}
    {first second : List (Step α)} {basis nonbasis basis' nonbasis' : List Int}
    (h : result.ReplayedBy p first second basis nonbasis basis' nonbasis') :
    result.steps.length = result.iterations.1 + result.iterations.2 := by
  rw [h.steps_eq, List.length_append, h.first_script.length_eq, h.second_script.length_eq]

theorem basicValue_of_not_mem {t : Tableau α} {k : Int} (hk : k ∉ t.basis) :
    t.basicValue k = 0 := by
  rw [basicValue, List.idxOf?_eq_none_iff.2 hk]

namespace Solver

variable {setting : Setting α κ} {options : Options} {p : LinearProgram α} {verbose : Bool}
  {phase left done : Nat} {seen : List κ} {t : Tableau α} {run : PhaseRun α}

theorem exchanges_record {r c : Nat} (h : t.Pivotal r c) (phase iteration : Nat) :
    (record phase iteration t r c).Exchanges t.basis t.nonbasis where
  entering := by
    have hc : c < t.nonbasis.length := h.col
    simp [record, colVar, hc]
  leaving := by
    have hr : r < t.basis.length := h.row
    simp [record, rowVar, hr]
  basis_eq := rfl
  nonbasis_eq := rfl

/-- The steps of a phase lead from the lists of its first tableau to those of its last one. -/
theorem PhaseCourse.replays (h : PhaseCourse setting verbose phase left done seen t run) :
    Replays t.basis t.nonbasis run.steps run.tableau.basis run.tableau.nonbasis := by
  induction h with
  | pivoted hchoice _ _ _ ih => exact .cons (exchanges_record (choice_pivotal hchoice) _ _) ih
  | _ => exact .nil

theorem PhaseCourse.map_number (h : PhaseCourse setting verbose phase left done seen t run) :
    run.steps.map Step.number =
      (List.range' (done + 1) run.steps.length).map (phase, ·) := by
  induction h with
  | pivoted _ _ _ _ ih =>
    rw [List.length_cons, List.range'_succ, List.map_cons, List.map_cons, ih]
    rfl
  | _ => rfl

variable [DecidableEq κ] {start : Tableau α}

theorem PhaseOf.script (h : PhaseOf setting options p phase start run) :
    Script phase run.pivots start.basis start.nonbasis run.steps run.tableau.basis
      run.tableau.nonbasis where
  numbered := by
    rw [h.course.map_number, h.length_steps]
  replays := h.course.replays

theorem PhaseOf.pivots_le_limit (h : PhaseOf setting options p phase start run) :
    run.pivots ≤ options.maxIterations := by
  rw [← h.length_steps]
  exact h.trail.le_left

theorem FirstRun.script {one : PhaseRun α} (h : FirstRun setting options p one) :
    Script 1 one.pivots (varRange (p.numCosts + 1) p.constraintRows) (varRange 1 p.numCosts)
      one.steps one.tableau.basis one.tableau.nonbasis :=
  (PhaseOf.first h).script

theorem SecondRun.script {one two : PhaseRun α} (hone : FirstRun setting options p one)
    (hstop : one.stop = none) (hclear : Cleared p one.tableau)
    (h : SecondRun setting options p one two) :
    Script 2 two.pivots one.tableau.basis
      (one.tableau.nonbasis.filter (· ≤ (p.threshold : Int))) two.steps two.tableau.basis
      two.tableau.nonbasis := by
  rw [← nonbasis_compact]
  exact (PhaseOf.second hone hstop hclear h).script

omit [DecidableEq κ] in
/-- A solution has an entry for each variable, and zero for one that is not basic. -/
theorem getElem?_tabulate_basicValue (t : Tableau α) {n k : Nat} (hk : k < n)
    (hbasis : (k : Int) + 1 ∉ t.basis) : (tabulate n t.basicValue)[k]? = some 0 := by
  simp [tabulate, hk, basicValue_of_not_mem hbasis]

theorem replayedBy_firstReport {one : PhaseRun α} (h : FirstRun setting options p one)
    (reason : FailureReason) :
    (firstReport one reason).result.ReplayedBy p one.steps [] one.tableau.basis
      one.tableau.nonbasis one.tableau.basis
      (one.tableau.nonbasis.filter (· ≤ (p.threshold : Int))) where
  steps_eq := (List.append_nil _).symm
  first_script := h.script
  second_script := .nil _ _ _
  second_eq_nil _ _ := rfl
  eq_zero x objective hout := by cases hout

theorem replayedBy_secondReport {one two : PhaseRun α} (hone : FirstRun setting options p one)
    (hstop : one.stop = none) (hclear : Cleared p one.tableau)
    (htwo : SecondRun setting options p one two) :
    (secondReport p one two (secondOutcome p two)).result.ReplayedBy p one.steps two.steps
      one.tableau.basis one.tableau.nonbasis two.tableau.basis two.tableau.nonbasis where
  steps_eq := rfl
  first_script := hone.script
  second_script := htwo.script hone hstop hclear
  second_eq_nil reason hout := by
    simp only [secondReport, secondOutcome] at hout
    split at hout
    · cases hout
    · cases hout
  eq_zero x objective hout := by
    simp only [secondReport, secondOutcome] at hout
    split at hout
    · cases hout
    · cases hout
      exact ⟨length_tabulate _ _, fun k hk hbasis => getElem?_tabulate_basicValue _ hk hbasis⟩

/-- The steps of a solve can be replayed from the slack and artificial variables as the basis, and
the pivots of each phase, which are as many as the steps, stay within the limit. -/
theorem steps_replay (setting : Setting α κ) (options : Options) (p : LinearProgram α) :
    ∃ report, solve setting options p = .ok report ∧
      report.result.iterations.1 ≤ options.maxIterations ∧
      report.result.iterations.2 ≤ options.maxIterations ∧
      report.result.steps.length = report.result.iterations.1 + report.result.iterations.2 ∧
      ∃ first second basis nonbasis basis' nonbasis',
        report.result.ReplayedBy p first second basis nonbasis basis' nonbasis' := by
  obtain ⟨one, hone⟩ := exists_firstRun setting options p
  have hlimit := (PhaseOf.first hone).pivots_le_limit
  cases hstop : one.stop with
  | some reason =>
    have hreplay := replayedBy_firstReport hone reason
    exact ⟨_, solve_of_stopped hone hstop, hlimit, Nat.zero_le _, hreplay.length_eq, _, _, _, _, _,
      _, hreplay⟩
  | none =>
    by_cases hclear : Cleared p one.tableau
    · obtain ⟨two, htwo⟩ := hone.exists_secondRun hstop hclear
      have hlimit' := (PhaseOf.second hone hstop hclear htwo).pivots_le_limit
      have hreplay := replayedBy_secondReport hone hstop hclear htwo
      exact ⟨_, solve_of_secondRun hone hstop hclear htwo, hlimit, hlimit', hreplay.length_eq, _, _,
        _, _, _, _, hreplay⟩
    · have hreplay := replayedBy_firstReport hone .infeasible
      exact ⟨_, solve_of_not_cleared hone hstop hclear, hlimit, Nat.zero_le _, hreplay.length_eq, _,
        _, _, _, _, _, hreplay⟩

end Solver

end TwoPhase
