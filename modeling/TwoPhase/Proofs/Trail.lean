import Mathlib.Data.List.Iterate
import TwoPhase.Proofs.Visits

/-!
The trail of a phase: its tableaus are the iterates of one step. The step looks at the cells and
at the number of rows, not at the variables that rows and columns name, so tableaus with the same
cells have the same trail of cells. Nothing is assumed of the arithmetic or of the keys.
-/
namespace TwoPhase

open Tableau

variable {α κ : Type} [Cell α]

namespace Tableau

variable {t t' : Tableau α} {r c : Nat}

def HasPivot (t : Tableau α) : Prop := ∃ r c, t.choice t.constraintRows = some ⟨some r, c⟩

/-- The tableau after the next pivot of a phase that has neither a limit nor a history; the same
tableau if no pivot is chosen. -/
def advance (t : Tableau α) : Tableau α :=
  match t.choice t.constraintRows with
  | some ⟨some r, c⟩ => t.exchange r c
  | _ => t

theorem advance_eq (h : t.choice t.constraintRows = some ⟨some r, c⟩) :
    t.advance = t.exchange r c := by
  simp only [advance, h]

theorem constraintRows_advance (t : Tableau α) : t.advance.constraintRows = t.constraintRows := by
  unfold advance
  split
  · exact constraintRows_exchange t _ _
  · rfl

theorem reaches_advance (t : Tableau α) : Reaches t t.advance := by
  unfold advance
  split
  · next r c hchoice => exact .single ⟨r, c, hchoice, rfl⟩
  · exact .refl

theorem reaches_iterate (t : Tableau α) (k : Nat) : Reaches t (advance^[k] t) := by
  induction k with
  | zero => exact .refl
  | succ k ih =>
    rw [Function.iterate_succ_apply']
    exact ih.trans (reaches_advance _)

theorem pivot_eq_advance (ht : t.HasObjective)
    (hchoice : t.choice t.constraintRows = some ⟨some r, c⟩) :
    t.pivot r c = (t.advance, none) := by
  rw [(choice_pivotal hchoice).pivot_eq (le_of_lt ht), advance_eq hchoice]

/-- A bounded pivot is selected at a tableau, and made there. -/
theorem HasPivot.pivot_eq_advance (h : t.HasPivot) (ht : t.HasObjective) :
    ∃ r c : Nat, t.selectPivot t.constraintRows = .ok (some ⟨some r, c⟩) ∧
      t.pivot r c = (t.advance, none) := by
  obtain ⟨r, c, hchoice⟩ := h
  exact ⟨r, c, (selectPivot_eq_ok_iff ht).2 hchoice, t.pivot_eq_advance ht hchoice⟩

omit [Cell α] in
theorem rhsCol_congr (hcells : t.cells = t'.cells) : t.rhsCol = t'.rhsCol := by
  have hwidth := t.width_cells
  rw [hcells, t'.width_cells] at hwidth
  exact (Nat.succ.inj hwidth).symm

section SameCells

variable (hcells : t.cells = t'.cells) (hrows : t.constraintRows = t'.constraintRows)
include hcells hrows

theorem choice_congr : t.choice t.constraintRows = t'.choice t'.constraintRows := by
  rw [choice, choice, hcells, hrows, rhsCol_congr hcells]

theorem hasPivot_congr : t.HasPivot ↔ t'.HasPivot := by
  rw [HasPivot, HasPivot, choice_congr hcells hrows]

theorem cells_advance_congr : t.advance.cells = t'.advance.cells := by
  simp only [advance, choice_congr hcells hrows]
  split
  · next r c _ =>
    have hexchange : t.cells.exchange r c = t'.cells.exchange r c := by rw [hcells]
    exact hexchange
  · exact hcells

end SameCells

theorem cells_iterate_congr (hcells : t.cells = t'.cells)
    (hrows : t.constraintRows = t'.constraintRows) (k : Nat) :
    (advance^[k] t).cells = (advance^[k] t').cells := by
  induction k generalizing t t' with
  | zero => exact hcells
  | succ k ih =>
    rw [Function.iterate_succ_apply, Function.iterate_succ_apply]
    refine ih (cells_advance_congr hcells hrows) ?_
    rw [constraintRows_advance, constraintRows_advance, hrows]

section Repeated

variable {first last : Nat} (hlt : first < last)
  (hcells : (advance^[last] t).cells = (advance^[first] t).cells)
include hlt hcells

/-- Once cells are repeated, they are repeated over and over. -/
theorem cells_iterate_periodic {k : Nat} (hk : first ≤ k) :
    (advance^[k + (last - first)] t).cells = (advance^[k] t).cells := by
  obtain ⟨j, rfl⟩ := Nat.exists_eq_add_of_le' hk
  have hlast : j + first + (last - first) = j + last := by omega
  rw [hlast, Function.iterate_add_apply, Function.iterate_add_apply]
  refine cells_iterate_congr hcells ?_ j
  rw [(reaches_iterate t last).constraintRows, (reaches_iterate t first).constraintRows]

/-- A trail that has pivots up to a repetition has pivots for ever. -/
theorem hasPivot_iterate (hpivot : ∀ k < last, (advance^[k] t).HasPivot) (k : Nat) :
    (advance^[k] t).HasPivot := by
  induction k using Nat.strong_induction_on with
  | _ k ih =>
    by_cases hk : k < last
    · exact hpivot k hk
    · -- the tableau one period before has the same cells
      have hback : first ≤ k - (last - first) := by omega
      have hperiod := cells_iterate_periodic hlt hcells hback
      rw [Nat.sub_add_cancel (by omega)] at hperiod
      refine (hasPivot_congr hperiod ?_).2 (ih _ (by omega))
      rw [(reaches_iterate t k).constraintRows, (reaches_iterate t _).constraintRows]

end Repeated

end Tableau

omit [Cell α] in
def Result.pivots (r : Result α) (phase : Nat) : Nat :=
  if phase = 1 then r.iterations.1 else r.iterations.2

namespace Solver

variable {setting : Setting α κ} {options : Options} {p : LinearProgram α} {verbose : Bool}
  {phase left done : Nat} {seen : List κ} {t : Tableau α} {run : PhaseRun α}

variable (setting) in
def trailKeys (t : Tableau α) (n : Nat) : List κ :=
  (List.iterate advance t n).map fun t => setting.key t.cells

theorem mem_trailKeys {n : Nat} {key : κ} :
    key ∈ trailKeys setting t n ↔ ∃ k < n, setting.key (advance^[k] t).cells = key := by
  simp only [trailKeys, List.mem_map, List.mem_iterate]
  constructor
  · rintro ⟨_, ⟨k, hk, rfl⟩, hkey⟩
    exact ⟨k, hk, hkey⟩
  · rintro ⟨k, hk, hkey⟩
    exact ⟨_, ⟨k, hk, rfl⟩, hkey⟩

variable (setting) in
/-- A phase runs along a trail, from a tableau on and with the given keys seen: each pivot is
recorded and made at a key that is new, and the phase is cut short at the limit or at a key that
is not. -/
structure Trail (left done : Nat) (seen : List κ) (t : Tableau α) (run : PhaseRun α) : Prop where
  pivots : run.pivots = done + run.steps.length
  tableau : run.tableau = advance^[run.steps.length] t
  hasPivot : ∀ k < run.steps.length, (advance^[k] t).HasPivot
  nodup : seen.Nodup → (trailKeys setting t run.steps.length ++ seen).Nodup
  le_left : run.steps.length ≤ left
  exceeded : run.stop = some .iterationsExceeded → run.steps.length = left
  cycled : run.stop = some .cycleDetected →
    setting.key run.tableau.cells ∈ trailKeys setting t run.steps.length ++ seen

theorem Trail.halt {stop : Option FailureReason} (tables : List String)
    (hexceeded : stop = some .iterationsExceeded → left = 0)
    (hcycled : stop = some .cycleDetected → setting.key t.cells ∈ seen) :
    Trail setting left done seen t (.halt t done stop tables) where
  pivots := rfl
  tableau := rfl
  hasPivot k hk := absurd hk (Nat.not_lt_zero k)
  nodup hseen := hseen
  le_left := Nat.zero_le left
  exceeded hstop := (hexceeded hstop).symm
  cycled := hcycled

theorem Trail.cons {r c : Nat} (hchoice : t.choice t.constraintRows = some ⟨some r, c⟩)
    (hkey : setting.key t.cells ∉ seen) (s : Step α) (tables : List String)
    (h : Trail setting left (done + 1) (setting.key t.cells :: seen) (t.exchange r c) run) :
    Trail setting (left + 1) done seen t
      { run with steps := s :: run.steps, tables := tables ++ run.tables } := by
  rw [← advance_eq hchoice] at h
  -- the key of the tableau moves from the keys seen before to those of the trail
  have hkeys : (trailKeys setting t (run.steps.length + 1) ++ seen).Perm
      (trailKeys setting t.advance run.steps.length ++ setting.key t.cells :: seen) :=
    List.perm_middle.symm
  exact
    { pivots := by rw [h.pivots, List.length_cons, Nat.add_right_comm, Nat.add_assoc]
      tableau := by rw [h.tableau, List.length_cons, Function.iterate_succ_apply]
      hasPivot := by
        intro k hk
        cases k with
        | zero => exact ⟨r, c, hchoice⟩
        | succ k => exact h.hasPivot k (Nat.lt_of_succ_lt_succ hk)
      nodup := fun hseen => hkeys.nodup_iff.2 (h.nodup (List.nodup_cons.2 ⟨hkey, hseen⟩))
      le_left := Nat.succ_le_succ h.le_left
      exceeded := fun hstop => congrArg (· + 1) (h.exceeded hstop)
      cycled := fun hstop => hkeys.mem_iff.2 (h.cycled hstop) }

theorem PhaseCourse.trail (h : PhaseCourse setting verbose phase left done seen t run) :
    Trail setting left done seen t run := by
  induction h with
  | converged => exact .halt _ (by simp) (by simp)
  | unbounded => exact .halt _ (by simp) (by simp)
  | exceeded => exact .halt _ (fun _ => rfl) (by simp)
  | cycled _ hkey => exact .halt _ (by simp) fun _ => hkey
  | pivoted hchoice hkey _ _ ih => exact ih.cons hchoice hkey _ _

theorem PhaseCourse.visits_iterate
    (h : PhaseCourse setting verbose phase left done seen t run)
    (hvisit : Visits setting options p phase left seen t) {k : Nat} (hk : k ≤ run.steps.length) :
    ∃ left' seen', Visits setting options p phase left' seen' (advance^[k] t) := by
  induction h generalizing k with
  | pivoted hchoice hkey _ _ ih =>
    cases k with
    | zero => exact ⟨_, _, hvisit⟩
    | succ k =>
      rw [Function.iterate_succ_apply, advance_eq hchoice]
      exact ih (hvisit.exchange hchoice hkey) (Nat.le_of_succ_le_succ hk)
  | _ =>
    obtain rfl : k = 0 := Nat.le_zero.1 hk
    exact ⟨_, _, hvisit⟩

/-- The steps of a phase are the pivots of its trail, numbered from the ones before. -/
theorem PhaseCourse.getElem_steps
    (h : PhaseCourse setting verbose phase left done seen t run) {k : Nat}
    (hk : k < run.steps.length) :
    ∃ r c, (advance^[k] t).choice (advance^[k] t).constraintRows = some ⟨some r, c⟩ ∧
      run.steps[k] = record phase (done + k + 1) (advance^[k] t) r c := by
  induction h generalizing k with
  | pivoted hchoice _ _ _ ih =>
    cases k with
    | zero => exact ⟨_, _, hchoice, rfl⟩
    | succ k =>
      obtain ⟨r', c', hchoice', hs⟩ := ih (Nat.lt_of_succ_lt_succ hk)
      rw [Function.iterate_succ_apply, advance_eq hchoice]
      refine ⟨r', c', hchoice', ?_⟩
      rw [List.getElem_cons_succ, hs, Nat.add_right_comm _ 1 k]
      rfl
  | _ => exact absurd hk (Nat.not_lt_zero k)

section Phases

variable [DecidableEq κ]

variable (setting options p) in
/-- The runs of the phases of a solve, each with the tableau it starts from. -/
inductive PhaseOf : Nat → Tableau α → PhaseRun α → Prop
  | first {one : PhaseRun α} (hone : FirstRun setting options p one) :
      PhaseOf 1 (phaseOne p) one
  | second {one two : PhaseRun α} (hone : FirstRun setting options p one)
      (hstop : one.stop = none) (hclear : Cleared p one.tableau)
      (htwo : SecondRun setting options p one two) :
      PhaseOf 2 (one.tableau.compact p.threshold) two

variable {start : Tableau α} (h : PhaseOf setting options p phase start run)
include h

theorem PhaseOf.visits : Visits setting options p phase options.maxIterations [] start := by
  cases h with
  | first => exact .start
  | second hone hstop hclear => exact hone.compact_visits hstop hclear

theorem PhaseOf.course :
    PhaseCourse setting options.verbose phase options.maxIterations 0 [] start run := by
  refine .of_runPhase h.visits.hasObjective ?_
  cases h with
  | first hone => exact hone
  | second _ _ _ htwo => exact htwo

theorem PhaseOf.trail : Trail setting options.maxIterations 0 [] start run := h.course.trail

theorem PhaseOf.length_steps : run.steps.length = run.pivots := by
  rw [h.trail.pivots, Nat.zero_add]

theorem PhaseOf.tableau_eq : run.tableau = advance^[run.pivots] start := by
  rw [h.trail.tableau, h.length_steps]

omit h in
/-- A phase starts from one tableau and has one run. -/
theorem PhaseOf.unique {start' : Tableau α} {run' : PhaseRun α}
    (h : PhaseOf setting options p phase start run)
    (h' : PhaseOf setting options p phase start' run') : start' = start ∧ run' = run := by
  cases h with
  | first hone =>
    cases h' with
    | first hone' => exact ⟨rfl, hone.unique hone'⟩
  | second hone _ _ htwo =>
    cases h' with
    | second hone' _ _ htwo' =>
      cases hone.unique hone'
      exact ⟨rfl, htwo.unique htwo'⟩

omit h in
/-- Unless a program is found infeasible, it is a phase that stops for the reason of a failure. -/
theorem failed_phaseOf {report : Report α} {reason : FailureReason}
    (hsolve : solve setting options p = .ok report)
    (hout : report.result.outcome = .failed reason phase) (hreason : reason ≠ .infeasible) :
    ∃ start run, PhaseOf setting options p phase start run ∧ run.stop = some reason ∧
      report.result.pivots phase = run.pivots := by
  cases solve_eq_ok_iff.1 hsolve with
  | @first one _ hone hstop =>
    cases hout
    exact ⟨_, one, .first hone, hstop, rfl⟩
  | infeasible =>
    cases hout
    exact absurd rfl hreason
  | @second one two _ hone hstop hclear htwo hstop' =>
    cases hout
    exact ⟨_, two, .second hone hstop hclear htwo, hstop', rfl⟩
  | optimal => cases hout

omit h in
/-- The pivots that a solve reports are those of its phases, and none for a phase that it does not
reach. -/
theorem iterations_of_solve {report : Report α} (hsolve : solve setting options p = .ok report) :
    (∃ start run, PhaseOf setting options p 1 start run ∧
      report.result.iterations.1 = run.pivots) ∧
    (report.result.iterations.2 = 0 ∨ ∃ start run, PhaseOf setting options p 2 start run ∧
      report.result.iterations.2 = run.pivots) := by
  cases solve_eq_ok_iff.1 hsolve with
  | first hone => exact ⟨⟨_, _, .first hone, rfl⟩, .inl rfl⟩
  | infeasible hone => exact ⟨⟨_, _, .first hone, rfl⟩, .inl rfl⟩
  | second hone hstop hclear htwo =>
    exact ⟨⟨_, _, .first hone, rfl⟩, .inr ⟨_, _, .second hone hstop hclear htwo, rfl⟩⟩
  | optimal hone hstop hclear htwo =>
    exact ⟨⟨_, _, .first hone, rfl⟩, .inr ⟨_, _, .second hone hstop hclear htwo, rfl⟩⟩

end Phases

end Solver

end TwoPhase
