import TwoPhase.Proofs.Feasibility
import TwoPhase.Proofs.Totality
import TwoPhase.Proofs.Trail

/-!
More pivots for each phase. A phase that is not stopped by its limit is the same under a larger
one, and a phase that is stopped by it begins the one under a larger limit, so a solve that is not
stopped by the limit has one result for all larger ones. Whether tableaus are shown makes no
difference to the result. Nothing is assumed of the arithmetic or of the keys.
-/
namespace TwoPhase

open Tableau

variable {α κ : Type}

structure PhaseRun.Agrees (run run' : PhaseRun α) : Prop where
  tableau : run'.tableau = run.tableau
  pivots : run'.pivots = run.pivots
  stop : run'.stop = run.stop
  steps : run'.steps = run.steps

/-- A run makes the pivots of another one, and no more unless that one is stopped by the limit. -/
structure PhaseRun.Extends (run run' : PhaseRun α) : Prop where
  steps_prefix : run.steps <+: run'.steps
  agrees : run.stop ≠ some .iterationsExceeded → run.Agrees run'

theorem PhaseRun.extends_halt (t : Tableau α) (done : Nat) (stop : Option FailureReason)
    (tables tables' : List String) :
    (halt t done stop tables).Extends (halt t done stop tables') where
  steps_prefix := List.prefix_refl []
  agrees _ := ⟨rfl, rfl, rfl, rfl⟩

theorem PhaseRun.Extends.cons {run run' : PhaseRun α} (h : run.Extends run') (s : Step α)
    (tables tables' : List String) :
    Extends { run with steps := s :: run.steps, tables := tables }
      { run' with steps := s :: run'.steps, tables := tables' } where
  steps_prefix := List.cons_prefix_cons.2 ⟨rfl, h.steps_prefix⟩
  agrees hstop :=
    have hrest := h.agrees hstop
    ⟨hrest.tableau, hrest.pivots, hrest.stop, congrArg (s :: ·) hrest.steps⟩

/-- A result continues another one, and is the same unless that one is stopped by the limit. -/
structure Result.Extends (result result' : Result α) : Prop where
  steps_prefix : result.steps <+: result'.steps
  eq : (∀ phase, result.outcome ≠ .failed .iterationsExceeded phase) → result' = result

theorem Result.Extends.of_eq {result result' : Result α} (h : result' = result) :
    result.Extends result' :=
  ⟨h ▸ List.prefix_refl _, fun _ => h⟩

namespace Solver

variable [Cell α] {setting : Setting α κ} {options options' : Options} {p : LinearProgram α}
  {verbose verbose' : Bool} {phase left left' done : Nat} {seen : List κ} {t : Tableau α}
  {run run' : PhaseRun α}

section Inversion

variable (h : PhaseCourse setting verbose phase left done seen t run)
include h

theorem PhaseCourse.eq_converged (hchoice : t.choice t.constraintRows = none) :
    ∃ tables, run = .halt t done none tables := by
  cases h with
  | converged => exact ⟨_, rfl⟩
  | unbounded h' | exceeded h' | cycled h' | pivoted h' =>
    rw [hchoice] at h'
    cases h'

theorem PhaseCourse.eq_unbounded {c : Nat}
    (hchoice : t.choice t.constraintRows = some ⟨none, c⟩) :
    run = .halt t done (some .unbounded) [] := by
  cases h with
  | unbounded => rfl
  | converged h' | exceeded h' | cycled h' | pivoted h' =>
    rw [hchoice] at h'
    cases h'

theorem PhaseCourse.eq_exceeded {r c : Nat}
    (hchoice : t.choice t.constraintRows = some ⟨some r, c⟩) (hleft : left = 0) :
    run = .halt t done (some .iterationsExceeded) [] := by
  cases h with
  | exceeded => rfl
  | cycled | pivoted => cases hleft
  | converged h' | unbounded h' =>
    rw [hchoice] at h'
    cases h'

theorem PhaseCourse.eq_cycled {r c : Nat}
    (hchoice : t.choice t.constraintRows = some ⟨some r, c⟩) (hleft : 0 < left)
    (hkey : setting.key t.cells ∈ seen) :
    run = .halt t done (some .cycleDetected) [] := by
  cases h with
  | cycled => rfl
  | exceeded => exact absurd hleft (Nat.lt_irrefl 0)
  | pivoted _ hkey' => exact absurd hkey hkey'
  | converged h' | unbounded h' =>
    rw [hchoice] at h'
    cases h'

theorem PhaseCourse.eq_pivoted {r c : Nat}
    (hchoice : t.choice t.constraintRows = some ⟨some r, c⟩) (hleft : 0 < left)
    (hkey : setting.key t.cells ∉ seen) :
    ∃ tables rest, PhaseCourse setting verbose phase (left - 1) (done + 1)
        (setting.key t.cells :: seen) (t.exchange r c) rest ∧
      run = { rest with
        steps := record phase (done + 1) t r c :: rest.steps
        tables := tables } := by
  cases h with
  | pivoted hchoice' _ _ hrest =>
    rw [hchoice] at hchoice'
    cases hchoice'
    exact ⟨_, _, hrest, rfl⟩
  | exceeded => exact absurd hleft (Nat.lt_irrefl 0)
  | cycled _ hkey' => exact absurd hkey' hkey
  | converged h' | unbounded h' =>
    rw [hchoice] at h'
    cases h'

end Inversion

/-- A phase under a larger limit extends the one under a smaller limit. -/
theorem PhaseCourse.extends (h : PhaseCourse setting verbose phase left done seen t run)
    (h' : PhaseCourse setting verbose' phase left' done seen t run') (hle : left ≤ left') :
    run.Extends run' := by
  induction h generalizing left' run' with
  | converged hchoice =>
    obtain ⟨tables, rfl⟩ := h'.eq_converged hchoice
    exact PhaseRun.extends_halt _ _ _ _ _
  | unbounded hchoice =>
    rw [h'.eq_unbounded hchoice]
    exact PhaseRun.extends_halt _ _ _ _ _
  | exceeded => exact ⟨List.nil_prefix, fun hstop => absurd rfl hstop⟩
  | cycled hchoice hkey =>
    rw [h'.eq_cycled hchoice (Nat.zero_lt_of_lt hle) hkey]
    exact PhaseRun.extends_halt _ _ _ _ _
  | pivoted hchoice hkey _ _ ih =>
    obtain ⟨tables, rest', hrest', rfl⟩ := h'.eq_pivoted hchoice (Nat.zero_lt_of_lt hle) hkey
    exact (ih hrest' (by omega)).cons _ _ _

variable [DecidableEq κ]

section Runs

variable (hle : options.maxIterations ≤ options'.maxIterations)
include hle

theorem FirstRun.extends {one one' : PhaseRun α} (hone : FirstRun setting options p one)
    (hone' : FirstRun setting options' p one') : one.Extends one' :=
  (PhaseOf.first hone).course.extends (PhaseOf.first hone').course hle

theorem SecondRun.extends {one one' two two' : PhaseRun α}
    (htableau : one'.tableau = one.tableau) (htwo : SecondRun setting options p one two)
    (htwo' : SecondRun setting options' p one' two') : two.Extends two' := by
  rw [SecondRun, htableau] at htwo'
  have ht := hasObjective_compact one.tableau p.threshold
  exact ((runPhase_eq_ok_iff ht).1 htwo).extends ((runPhase_eq_ok_iff ht).1 htwo') hle

end Runs

/-- The steps of the first phase come first. -/
theorem FirstRun.steps_prefix {one : PhaseRun α} {report : Report α}
    (hone : FirstRun setting options p one) (h : solve setting options p = .ok report) :
    one.steps <+: report.result.steps := by
  cases solve_eq_ok_iff.1 h with
  | first hone' | infeasible hone' => exact hone.unique hone' ▸ List.prefix_refl _
  | second hone' | optimal hone' => exact hone.unique hone' ▸ List.prefix_append _ _

variable (p) in
def secondOutcome (two : PhaseRun α) : Outcome α :=
  match two.stop with
  | some reason => .failed reason 2
  | none => .optimal (tabulate p.numCosts two.tableau.basicValue) (two.tableau.objective + p.offset)

theorem solve_of_secondRun {one two : PhaseRun α} (hone : FirstRun setting options p one)
    (hstop : one.stop = none) (hclear : Cleared p one.tableau)
    (htwo : SecondRun setting options p one two) :
    solve setting options p = .ok (secondReport p one two (secondOutcome p two)) := by
  rw [solve_eq_ok_iff, secondOutcome]
  cases hstop' : two.stop with
  | some reason => exact .second hone hstop hclear htwo hstop'
  | none => exact .optimal hone hstop hclear htwo hstop'

omit [DecidableEq κ] in
theorem secondReport_extends {one one' two two' : PhaseRun α} (hone : one.Agrees one')
    (htwo : two.Extends two') :
    (secondReport p one two (secondOutcome p two)).result.Extends
      (secondReport p one' two' (secondOutcome p two')).result where
  steps_prefix := by
    simp only [secondReport, hone.steps]
    exact (List.prefix_append_right_inj one.steps).2 htwo.steps_prefix
  eq hne := by
    have hagree := htwo.agrees fun hstop =>
      hne 2 (by simp only [secondReport, secondOutcome, hstop])
    simp only [secondReport, secondOutcome, hone.pivots, hone.steps, hagree.tableau,
      hagree.pivots, hagree.stop, hagree.steps]

/-- A solve under a larger limit extends the one under a smaller limit. -/
theorem extends_of_le (hle : options.maxIterations ≤ options'.maxIterations)
    {report report' : Report α} (h : solve setting options p = .ok report)
    (h' : solve setting options' p = .ok report') : report.result.Extends report'.result := by
  obtain ⟨one, hone⟩ := exists_firstRun setting options p
  obtain ⟨one', hone'⟩ := exists_firstRun setting options' p
  have hextends := hone.extends hle hone'
  cases hstop : one.stop with
  | some reason =>
    have hreport := Except.ok.inj (h.symm.trans (solve_of_stopped hone hstop))
    refine ⟨?_, fun hne => ?_⟩
    · rw [hreport]
      exact hextends.steps_prefix.trans (hone'.steps_prefix h')
    · have hagree := hextends.agrees fun hlimit => hne 1 (by
        rw [hreport, firstReport, Option.some.inj (hstop.symm.trans hlimit)])
      rw [solve_of_stopped hone' (hagree.stop.trans hstop)] at h'
      rw [hreport, ← Except.ok.inj h']
      simp only [firstReport, hagree.pivots, hagree.steps]
  | none =>
    have hagree := hextends.agrees (by simp [hstop])
    have hstop' := hagree.stop.trans hstop
    by_cases hclear : Cleared p one.tableau
    · have hclear' : Cleared p one'.tableau := hagree.tableau ▸ hclear
      obtain ⟨two, htwo⟩ := hone.exists_secondRun hstop hclear
      obtain ⟨two', htwo'⟩ := hone'.exists_secondRun hstop' hclear'
      rw [solve_of_secondRun hone hstop hclear htwo] at h
      rw [solve_of_secondRun hone' hstop' hclear' htwo'] at h'
      rw [← Except.ok.inj h, ← Except.ok.inj h']
      exact secondReport_extends hagree (htwo.extends hle hagree.tableau htwo')
    · rw [solve_of_not_cleared hone hstop hclear] at h
      rw [solve_of_not_cleared hone' hstop' (hagree.tableau ▸ hclear)] at h'
      rw [← Except.ok.inj h, ← Except.ok.inj h']
      exact .of_eq (by simp only [firstReport, hagree.pivots, hagree.steps])

/-- A phase that is stopped by the limit has made all its pivots and has a next one. -/
theorem PhaseOf.exceeded {start : Tableau α} (h : PhaseOf setting options p phase start run)
    (hstop : run.stop = some .iterationsExceeded) :
    run.steps.length = options.maxIterations ∧
      ∃ r c, run.tableau.selectPivot run.tableau.constraintRows = .ok (some ⟨some r, c⟩) := by
  obtain ⟨hreach, hhalt⟩ := h.course.reaches
  rw [hstop] at hhalt
  obtain ⟨r, c, hchoice⟩ := hhalt
  have ht := hreach.hasObjective h.visits.hasObjective
  exact ⟨h.trail.exceeded hstop, r, c, (selectPivot_eq_ok_iff ht).2 hchoice⟩

/-- The result of a solve is the same under any larger limit, unless a phase is stopped by the
limit. Such a phase has made as many pivots as the limit allows and would make another one, and
the steps up to there begin the steps under any larger limit. -/
theorem result_of_le (setting : Setting α κ) (p : LinearProgram α) {options options' : Options}
    (hle : options.maxIterations ≤ options'.maxIterations) :
    ∃ report report', solve setting options p = .ok report ∧
      solve setting options' p = .ok report' ∧
      ((∀ phase, report.result.outcome ≠ .failed .iterationsExceeded phase) →
        report'.result = report.result) ∧
      ∀ phase, report.result.outcome = .failed .iterationsExceeded phase →
        report.result.pivots phase = options.maxIterations ∧
        (∃ start run, PhaseOf setting options p phase start run ∧
          run.steps.length = options.maxIterations ∧
          ∃ r c, run.tableau.selectPivot run.tableau.constraintRows = .ok (some ⟨some r, c⟩)) ∧
        report.result.steps <+: report'.result.steps := by
  obtain ⟨report, h⟩ := exists_solve setting options p
  obtain ⟨report', h'⟩ := exists_solve setting options' p
  have hextends := extends_of_le hle h h'
  refine ⟨report, report', h, h', hextends.eq, fun phase hout => ?_⟩
  obtain ⟨start, run, hrun, hstop, hpivots⟩ := failed_phaseOf h hout (by simp)
  obtain ⟨hlength, hchoice⟩ := hrun.exceeded hstop
  refine ⟨?_, ⟨start, run, hrun, hlength, hchoice⟩, hextends.steps_prefix⟩
  rw [hpivots, ← hrun.length_steps, hlength]

/-- One pivot of a round trip: the limit stops the second phase, which cycles if it may go on. -/
theorem result_of_le_round_trip :
    let p := LinearProgram.ofRows (-1) [] [([-1], 0)] []
    ({ maxIterations := 1 } : Options).maxIterations ≤ ({} : Options).maxIterations ∧
      ∃ report report', solve Setting.exact { maxIterations := 1 } p = .ok report ∧
        solve Setting.exact {} p = .ok report' ∧
        report.result.outcome = .failed .iterationsExceeded 2 ∧ report.result.pivots 2 = 1 ∧
        report'.result.outcome = .failed .cycleDetected 2 ∧
        report.result.steps <+: report'.result.steps := by
  intro p
  have hle : ({ maxIterations := 1 } : Options).maxIterations ≤ ({} : Options).maxIterations := by
    decide
  have hone : outcome Setting.exact { maxIterations := 1 } p =
      .ok (.failed .iterationsExceeded 2) := by decide +kernel
  have height : outcome Setting.exact {} p = .ok (.failed .cycleDetected 2) := by decide +kernel
  obtain ⟨report, report', h, h', -, hexceeded⟩ := result_of_le Setting.exact p hle
  rw [outcome, h] at hone
  rw [outcome, h'] at height
  obtain ⟨hpivots, -, hprefix⟩ := hexceeded 2 (Except.ok.inj hone)
  exact ⟨hle, report, report', h, h', Except.ok.inj hone, hpivots, Except.ok.inj height, hprefix⟩

end Solver

end TwoPhase
