import TwoPhase.Proofs.Course

/-!
The states that a solve passes through, as one relation over the functions that it calls. A state
is a phase, the pivots left in it, the keys of the grids seen in it, and a tableau. Every recorded
step is a pivot at such a state. Nothing is assumed of the arithmetic or of the keys.
-/
namespace TwoPhase

open Tableau

variable {α κ : Type} [Cell α]

section Tableaus

variable {p : LinearProgram α} {t : Tableau α}

theorem selectPivot_eq_ok_iff (ht : t.HasObjective) {choice : Option Pivot} :
    t.selectPivot t.constraintRows = .ok choice ↔ t.choice t.constraintRows = choice := by
  rw [t.selectPivot_eq ht (le_of_lt ht), Except.ok.injEq]

theorem SecondState.hasObjective (h : SecondState p t) : t.HasObjective := by
  rw [HasObjective, h.height, h.constraintRows]
  exact Nat.lt_succ_self _

theorem SecondState.exchange {r c : Nat} (h : SecondState p t)
    (hchoice : t.choice t.constraintRows = some ⟨some r, c⟩) : SecondState p (t.exchange r c) := by
  obtain ⟨t₁, hfirst, hhalt, hclear, hsecond⟩ := h
  exact ⟨t₁, hfirst, hhalt, hclear, hsecond.tail ⟨r, c, hchoice, rfl⟩⟩

end Tableaus

namespace Solver

variable (setting : Setting α κ) (options : Options) (p : LinearProgram α)

inductive Visits : Nat → Nat → List κ → Tableau α → Prop
  | start : Visits 1 options.maxIterations [] (phaseOne p)
  | pivot {phase left r c : Nat} {seen : List κ} {t : Tableau α}
      (hvisit : Visits phase (left + 1) seen t)
      (hchoice : t.selectPivot t.constraintRows = .ok (some ⟨some r, c⟩))
      (hkey : setting.key t.cells ∉ seen) :
      Visits phase left (setting.key t.cells :: seen) (t.pivot r c).1
  | compact {left : Nat} {seen : List κ} {t t' : Tableau α} {helper : α}
      (hvisit : Visits 1 left seen t)
      (hchoice : t.selectPivot t.constraintRows = .ok none)
      (hread : t.cells.read t.constraintRows t.rhsCol = .ok helper)
      (hzero : Cell.isZero helper = true)
      (hbasis : ∀ k ∈ t.basis, k ≤ (p.threshold : Int))
      (hdrop : t.dropColumnsAbove p.threshold = .ok t') :
      Visits 2 options.maxIterations [] t'

def Recorded (phase : Nat) (s : Step α) : Prop :=
  ∃ left seen t r c, Visits setting options p phase (left + 1) seen t ∧
    t.selectPivot t.constraintRows = .ok (some ⟨some r, c⟩) ∧ setting.key t.cells ∉ seen ∧
    s = record phase s.iteration t r c

variable {setting options p} {phase left : Nat} {seen : List κ} {t : Tableau α}

/-- The first phase reaches its tableaus from the artificial problem, the second from a cleared
tableau. -/
theorem Visits.reached (h : Visits setting options p phase left seen t) :
    phase = 1 ∧ Reaches (phaseOne p) t ∨ phase = 2 ∧ SecondState p t := by
  induction h with
  | start => exact .inl ⟨rfl, .refl⟩
  | @pivot phase left r c seen t _ hchoice _ ih =>
    have ht : t.HasObjective := by
      rcases ih with ⟨-, hfirst⟩ | ⟨-, hsecond⟩
      · exact hfirst.hasObjective (hasObjective_phaseOne p)
      · exact hsecond.hasObjective
    have hchoice := (selectPivot_eq_ok_iff ht).1 hchoice
    rw [(choice_pivotal hchoice).pivot_eq (le_of_lt ht)]
    rcases ih with ⟨hphase, hfirst⟩ | ⟨hphase, hsecond⟩
    · exact .inl ⟨hphase, hfirst.tail ⟨r, c, hchoice, rfl⟩⟩
    · exact .inr ⟨hphase, hsecond.exchange hchoice⟩
  | @compact left seen t t' helper _ hchoice hread hzero hbasis hdrop ih =>
    obtain ⟨-, hfirst⟩ | ⟨hphase, -⟩ := ih
    · have ht := hfirst.hasObjective (hasObjective_phaseOne p)
      rw [read_objective ht, Except.ok.injEq] at hread
      rw [dropColumnsAbove_eq _ _ ht, Except.ok.injEq] at hdrop
      subst hread hdrop
      exact .inr ⟨rfl, t, hfirst, (selectPivot_eq_ok_iff ht).1 hchoice, ⟨hzero, hbasis⟩, .refl⟩
    · cases hphase

theorem Visits.first (h : Visits setting options p 1 left seen t) : Reaches (phaseOne p) t := by
  rcases h.reached with ⟨-, hfirst⟩ | ⟨hphase, -⟩
  · exact hfirst
  · cases hphase

theorem Visits.second (h : Visits setting options p 2 left seen t) : SecondState p t := by
  rcases h.reached with ⟨hphase, -⟩ | ⟨-, hsecond⟩
  · cases hphase
  · exact hsecond

theorem Visits.hasObjective (h : Visits setting options p phase left seen t) :
    t.HasObjective := by
  rcases h.reached with ⟨-, hfirst⟩ | ⟨-, hsecond⟩
  · exact hfirst.hasObjective (hasObjective_phaseOne p)
  · exact hsecond.hasObjective

theorem Visits.exchange {r c : Nat} (h : Visits setting options p phase (left + 1) seen t)
    (hchoice : t.choice t.constraintRows = some ⟨some r, c⟩) (hkey : setting.key t.cells ∉ seen) :
    Visits setting options p phase left (setting.key t.cells :: seen) (t.exchange r c) := by
  have ht := h.hasObjective
  have hnext := h.pivot ((selectPivot_eq_ok_iff ht).2 hchoice) hkey
  rwa [(choice_pivotal hchoice).pivot_eq (le_of_lt ht)] at hnext

theorem Recorded.phase_eq {s : Step α} (h : Recorded setting options p phase s) :
    s.phase = phase := by
  obtain ⟨left, seen, t, r, c, -, -, -, hs⟩ := h
  rw [hs]
  rfl

theorem Recorded.visits {s : Step α} (h : Recorded setting options p phase s) :
    ∃ left seen t, Visits setting options p phase left seen t ∧
      s.basis = t.basis ∧ s.nonbasis = t.nonbasis := by
  obtain ⟨left, seen, t, r, c, hvisit, hchoice, hkey, hs⟩ := h
  have hnext := hvisit.exchange ((selectPivot_eq_ok_iff hvisit.hasObjective).1 hchoice) hkey
  rw [hs]
  exact ⟨left, _, _, hnext, rfl, rfl⟩

theorem Recorded.pivotal {s : Step α} (h : Recorded setting options p phase s) :
    ∃ left seen t, Visits setting options p phase left seen t ∧ t.Pivotal s.row s.col := by
  obtain ⟨left, seen, t, r, c, hvisit, hchoice, -, hs⟩ := h
  have hchoice := (selectPivot_eq_ok_iff hvisit.hasObjective).1 hchoice
  rw [hs]
  exact ⟨left + 1, seen, t, hvisit, choice_pivotal hchoice⟩

theorem PhaseCourse.visits {verbose : Bool} {done : Nat} {run : PhaseRun α}
    (h : PhaseCourse setting verbose phase left done seen t run)
    (hvisit : Visits setting options p phase left seen t) :
    (∃ left' seen', Visits setting options p phase left' seen' run.tableau) ∧
      ∀ s ∈ run.steps, Recorded setting options p phase s := by
  induction h with
  | converged => exact ⟨⟨_, _, hvisit⟩, by simp [PhaseRun.halt]⟩
  | unbounded => exact ⟨⟨_, _, hvisit⟩, by simp [PhaseRun.halt]⟩
  | exceeded => exact ⟨⟨_, _, hvisit⟩, by simp [PhaseRun.halt]⟩
  | cycled => exact ⟨⟨_, _, hvisit⟩, by simp [PhaseRun.halt]⟩
  | pivoted hchoice hkey _ _ ih =>
    obtain ⟨hlast, hsteps⟩ := ih (hvisit.exchange hchoice hkey)
    refine ⟨hlast, fun s hs => ?_⟩
    rcases List.mem_cons.1 hs with rfl | hs
    · have hselect := (selectPivot_eq_ok_iff hvisit.hasObjective).2 hchoice
      exact ⟨_, _, _, _, _, hvisit, hselect, hkey, rfl⟩
    · exact hsteps s hs

variable [DecidableEq κ]

theorem FirstRun.visits {one : PhaseRun α} (h : FirstRun setting options p one) :
    (∃ left seen, Visits setting options p 1 left seen one.tableau) ∧
      ∀ s ∈ one.steps, Recorded setting options p 1 s :=
  ((runPhase_eq_ok_iff (hasObjective_phaseOne p)).1 h).visits .start

theorem FirstRun.compact_visits {one : PhaseRun α} (h : FirstRun setting options p one)
    (hstop : one.stop = none) (hclear : Cleared p one.tableau) :
    Visits setting options p 2 options.maxIterations [] (one.tableau.compact p.threshold) := by
  obtain ⟨⟨left, seen, hvisit⟩, -⟩ := h.visits
  have ht := hvisit.hasObjective
  have hhalt := h.reaches.2
  rw [hstop] at hhalt
  exact hvisit.compact ((selectPivot_eq_ok_iff ht).2 hhalt) (read_objective ht)
    hclear.objective hclear.basis (dropColumnsAbove_eq _ _ ht)

theorem SecondRun.visits {one two : PhaseRun α} (hone : FirstRun setting options p one)
    (hstop : one.stop = none) (hclear : Cleared p one.tableau)
    (h : SecondRun setting options p one two) :
    (∃ left seen, Visits setting options p 2 left seen two.tableau) ∧
      ∀ s ∈ two.steps, Recorded setting options p 2 s :=
  ((runPhase_eq_ok_iff (hasObjective_compact _ _)).1 h).visits
    (hone.compact_visits hstop hclear)

/-- Every step of a solve is recorded at a state of its phase. -/
theorem recorded_of_solve {report : Report α} (h : solve setting options p = .ok report) :
    ∀ s ∈ report.result.steps, Recorded setting options p s.phase s := by
  intro s hs
  have hrecorded : ∃ phase, Recorded setting options p phase s := by
    cases solve_eq_ok_iff.1 h with
    | first hone _ => exact ⟨1, hone.visits.2 s hs⟩
    | infeasible hone _ _ => exact ⟨1, hone.visits.2 s hs⟩
    | second hone hstop hclear htwo _ =>
      rcases List.mem_append.1 hs with hs | hs
      · exact ⟨1, hone.visits.2 s hs⟩
      · exact ⟨2, (htwo.visits hone hstop hclear).2 s hs⟩
    | optimal hone hstop hclear htwo _ =>
      rcases List.mem_append.1 hs with hs | hs
      · exact ⟨1, hone.visits.2 s hs⟩
      · exact ⟨2, (htwo.visits hone hstop hclear).2 s hs⟩
  obtain ⟨phase, hphase⟩ := hrecorded
  rw [hphase.phase_eq]
  exact hphase

end Solver

end TwoPhase
