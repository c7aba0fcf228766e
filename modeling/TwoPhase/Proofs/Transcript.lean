import TwoPhase.Proofs.IterationLimit

/-!
What a solve prints. Its tables are told by the steps it records: before each pivot the tableau is
shown with the cell of the step in brackets, and after the last pivot of a phase that converges it
is shown once more, without brackets. Replaying the steps from the first tableau gives all of these
tableaus. A solve that shows nothing has the same result. Nothing is assumed of the arithmetic, of
the keys or of how a tableau is rendered.
-/
namespace TwoPhase

open Tableau

variable {α κ : Type}

def Outcome.stop (phase : Nat) : Outcome α → Option FailureReason
  | .failed .infeasible _ => none
  | .failed reason last => if last = phase then some reason else none
  | .optimal _ _ => none

theorem Outcome.stop_failed {reason : FailureReason} (hreason : reason ≠ .infeasible)
    (phase : Nat) : (failed reason phase : Outcome α).stop phase = some reason := by
  cases reason with
  | infeasible => exact absurd rfl hreason
  | iterationsExceeded | cycleDetected | unbounded => exact if_pos rfl

variable [Cell α]

section Tables

variable (renderer : Renderer α)

/-- Steps of a phase lead from a tableau to a tableau. The table of each step is made before its
pivot, numbered as the step is, with the cell of the step in brackets. -/
inductive StepTables (phase : Nat) :
    Tableau α → List (Step α) → List String → Tableau α → Prop
  | nil {t : Tableau α} : StepTables phase t [] [] t
  | cons {t t' last : Tableau α} {s : Step α} {rest : List (Step α)} {text : String}
      {texts : List String} (hphase : s.phase = phase)
      (htable : t.table renderer s.phase s.iteration (some (s.row, s.col)) = .ok text)
      (hpivot : t.pivot s.row s.col = (t', none)) (hrest : StepTables phase t' rest texts last) :
      StepTables phase t (s :: rest) (text :: texts) last

/-- The tables of a phase: those of its steps, and one more without brackets, numbered by the pivots
of the phase, if it converges. -/
inductive PhaseTables (phase pivots : Nat) (t : Tableau α) (steps : List (Step α))
    (last : Tableau α) : Option FailureReason → List String → Prop
  | converged {texts : List String} {text : String}
      (hsteps : StepTables renderer phase t steps texts last)
      (hchoice : last.selectPivot last.constraintRows = .ok none)
      (htable : last.table renderer phase pivots none = .ok text) :
      PhaseTables phase pivots t steps last none (texts ++ [text])
  | stopped {texts : List String} {reason : FailureReason}
      (hsteps : StepTables renderer phase t steps texts last) :
      PhaseTables phase pivots t steps last (some reason) texts

/-- The tables of a result: those of the first phase, and those of the second one unless the first
one fails. -/
inductive SolveTables (p : LinearProgram α) (result : Result α) : List String → Prop
  | first {reason : FailureReason} {last : Tableau α} {texts : List String}
      (hout : result.outcome = .failed reason 1)
      (hone : PhaseTables renderer 1 result.iterations.1 (phaseOne p) result.steps last
        (result.outcome.stop 1) texts) :
      SolveTables p result texts
  | second {steps₁ steps₂ : List (Step α)} {last₁ start last₂ : Tableau α}
      {texts₁ texts₂ : List String} (hout : ∀ reason, result.outcome ≠ .failed reason 1)
      (hsteps : result.steps = steps₁ ++ steps₂)
      (hone : PhaseTables renderer 1 result.iterations.1 (phaseOne p) steps₁ last₁ none texts₁)
      (hdrop : last₁.dropColumnsAbove p.threshold = .ok start)
      (htwo : PhaseTables renderer 2 result.iterations.2 start steps₂ last₂
        (result.outcome.stop 2) texts₂) :
      SolveTables p result (texts₁ ++ texts₂)

variable {renderer} {phase pivots : Nat} {t t' last : Tableau α} {steps : List (Step α)}
  {stop : Option FailureReason} {texts : List String}

theorem PhaseTables.cons {s : Step α} {text : String} (hphase : s.phase = phase)
    (htable : t.table renderer s.phase s.iteration (some (s.row, s.col)) = .ok text)
    (hpivot : t.pivot s.row s.col = (t', none))
    (h : PhaseTables renderer phase pivots t' steps last stop texts) :
    PhaseTables renderer phase pivots t (s :: steps) last stop (text :: texts) := by
  cases h with
  | converged hsteps hchoice hlast =>
    exact .converged (.cons hphase htable hpivot hsteps) hchoice hlast
  | stopped hsteps => exact .stopped (.cons hphase htable hpivot hsteps)

end Tables

namespace Solver

variable {setting : Setting α κ} {options : Options} {p : LinearProgram α} {phase left done : Nat}
  {seen : List κ} {verbose : Bool} {t start : Tableau α} {run : PhaseRun α}

omit [Cell α] in
theorem shown_verbose {iteration : Nat} {pivot : Option (Nat × Nat)} {tables : List String}
    (h : shown setting true phase iteration pivot t = .ok tables) :
    ∃ text, t.table setting.renderer phase iteration (pivot.map fun (r, c) => (↑r, ↑c)) =
      .ok text ∧ tables = [text] := by
  rw [shown, if_pos rfl] at h
  obtain ⟨text, htext, h⟩ := bind_eq_ok.1 h
  cases h
  exact ⟨text, htext, rfl⟩

theorem PhaseCourse.phaseTables
    (h : PhaseCourse setting true phase left done seen t run) (ht : t.HasObjective) :
    PhaseTables setting.renderer phase run.pivots t run.steps run.tableau run.stop run.tables := by
  induction h with
  | converged hchoice hshown =>
    obtain ⟨text, htext, rfl⟩ := shown_verbose hshown
    exact .converged .nil ((selectPivot_eq_ok_iff ht).2 hchoice) htext
  | unbounded | exceeded | cycled => exact .stopped .nil
  | @pivoted left done r c seen t tables rest hchoice _ hshown _ ih =>
    -- The text is that of `t`, although the step is recorded after the exchange.
    obtain ⟨text, htext, rfl⟩ := shown_verbose hshown
    have hpivot := (choice_pivotal hchoice).pivot_eq (le_of_lt ht)
    exact (ih (hasObjective_exchange ht r c)).cons rfl htext hpivot

theorem PhaseCourse.quiet (h : PhaseCourse setting verbose phase left done seen t run) :
    PhaseCourse setting false phase left done seen t { run with tables := [] } := by
  induction h with
  | converged hchoice => exact .converged hchoice rfl
  | unbounded hchoice => exact .unbounded hchoice
  | exceeded hchoice => exact .exceeded hchoice
  | cycled hchoice hkey => exact .cycled hchoice hkey
  | pivoted hchoice hkey _ _ ih => exact .pivoted hchoice hkey rfl ih

variable [DecidableEq κ]

section Quiet

variable {one two : PhaseRun α}

theorem FirstRun.quiet (h : FirstRun setting options p one) :
    FirstRun setting { options with verbose := false } p { one with tables := [] } :=
  (PhaseOf.first h).course.quiet.runPhase_eq (hasObjective_phaseOne p)

theorem SecondRun.quiet (h : SecondRun setting options p one two) :
    SecondRun setting { options with verbose := false } p { one with tables := [] }
      { two with tables := [] } :=
  have ht := hasObjective_compact one.tableau p.threshold
  ((runPhase_eq_ok_iff ht).1 h).quiet.runPhase_eq ht

/-- A solve that shows nothing reports the same without the tables. -/
theorem solve_quiet {report : Report α} (h : solve setting options p = .ok report) :
    solve setting { options with verbose := false } p = .ok { report with tables := [] } := by
  rw [solve_eq_ok_iff] at h ⊢
  cases h with
  | first hone hstop => exact .first hone.quiet hstop
  | infeasible hone hstop hclear => exact .infeasible hone.quiet hstop hclear
  | second hone hstop hclear htwo hstop' =>
    exact .second hone.quiet hstop hclear htwo.quiet hstop'
  | optimal hone hstop hclear htwo hstop' =>
    exact .optimal hone.quiet hstop hclear htwo.quiet hstop'

end Quiet

/-- A phase never stops because the program is infeasible. -/
theorem PhaseOf.stop_ne_infeasible (h : PhaseOf setting options p phase start run) :
    run.stop ≠ some .infeasible := by
  intro hstop
  have hhalt := h.course.reaches.2
  rw [hstop] at hhalt
  exact hhalt

theorem PhaseOf.phaseTables
    (h : PhaseOf setting { options with verbose := true } p phase start run) :
    PhaseTables setting.renderer phase run.pivots start run.steps run.tableau run.stop
      run.tables :=
  h.course.phaseTables h.visits.hasObjective

section Verbose

variable {one two : PhaseRun α} (hone : FirstRun setting { options with verbose := true } p one)
include hone

theorem solveTables_firstReport {reason : FailureReason}
    (hstop : (.failed reason 1 : Outcome α).stop 1 = one.stop) :
    SolveTables setting.renderer p (firstReport one reason).result one.tables := by
  have htables := (PhaseOf.first hone).phaseTables
  rw [← hstop] at htables
  exact .first rfl htables

theorem solveTables_secondReport (hstop : one.stop = none) (hclear : Cleared p one.tableau)
    (htwo : SecondRun setting { options with verbose := true } p one two) {outcome : Outcome α}
    (hout : ∀ reason, outcome ≠ .failed reason 1) (hstop' : outcome.stop 2 = two.stop) :
    SolveTables setting.renderer p (secondReport p one two outcome).result
      (one.tables ++ two.tables) := by
  have ht := hone.reaches.1.hasObjective (hasObjective_phaseOne p)
  have hfirst := (PhaseOf.first hone).phaseTables
  have hsecond := (PhaseOf.second hone hstop hclear htwo).phaseTables
  rw [hstop] at hfirst
  rw [← hstop'] at hsecond
  exact .second hout rfl hfirst (dropColumnsAbove_eq _ _ ht) hsecond

end Verbose

/-- The tables that a solve shows are those of its result. -/
theorem solveTables_of_solve {report : Report α}
    (h : solve setting { options with verbose := true } p = .ok report) :
    SolveTables setting.renderer p report.result report.tables := by
  cases solve_eq_ok_iff.1 h with
  | @first one reason hone hstop =>
    have hne : reason ≠ .infeasible := fun heq =>
      (PhaseOf.first hone).stop_ne_infeasible (heq ▸ hstop)
    exact solveTables_firstReport hone ((Outcome.stop_failed hne 1).trans hstop.symm)
  | infeasible hone hstop => exact solveTables_firstReport hone hstop.symm
  | @second one two reason hone hstop hclear htwo hstop' =>
    have hne : reason ≠ .infeasible := fun heq =>
      (PhaseOf.second hone hstop hclear htwo).stop_ne_infeasible (heq ▸ hstop')
    exact solveTables_secondReport hone hstop hclear htwo (by simp)
      ((Outcome.stop_failed hne 2).trans hstop'.symm)
  | optimal hone hstop hclear htwo hstop' =>
    exact solveTables_secondReport hone hstop hclear htwo (by simp) hstop'.symm

/-- A solve prints nothing unless it is asked to show its tableaus, and its result is the same
either way. What it prints then are the tables of this result, each followed by an empty line. -/
theorem printed_of_solve (setting : Setting α κ) (options : Options) (p : LinearProgram α) :
    ∃ quiet loud, solve setting { options with verbose := false } p = .ok quiet ∧
      solve setting { options with verbose := true } p = .ok loud ∧
      loud.result = quiet.result ∧ quiet.printed = "" ∧
      ∃ tables, SolveTables setting.renderer p quiet.result tables ∧
        loud.printed = String.join (tables.map (· ++ "\n\n")) := by
  obtain ⟨loud, hloud⟩ := exists_solve setting { options with verbose := true } p
  have hquiet := solve_quiet hloud
  exact ⟨{ loud with tables := [] }, loud, hquiet, hloud, rfl, rfl, loud.tables,
    solveTables_of_solve hloud, rfl⟩

end Solver

end TwoPhase
