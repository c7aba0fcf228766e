import TwoPhase.Proofs.Cycling
import TwoPhase.Proofs.RightHandSide

/-!
The objective along a phase, over the rationals. A pivot takes from it the cost of the entering
column times the ratio of the leaving row; the cost is positive and the ratio is not negative,
whatever the signs of the pivot cell and of the right-hand sides, so the objective never
increases, and it stands still exactly where the right-hand side of the pivot row is zero. Between
two visits of the same cells it can only stand still. Nothing is assumed of the program.
-/
namespace TwoPhase

open Tableau

variable {α κ : Type}

namespace Tableau

variable {t t' : Tableau Rat} {r c : Nat}

theorem objective_exchange (ht : t.HasObjective)
    (h : t.choice t.constraintRows = some ⟨some r, c⟩) :
    (t.exchange r c).objective =
      t.objective - t.cells.cell t.constraintRows c * (t.rhs r / t.cells.cell r c) := by
  have hpivotal := choice_pivotal h
  have hrow : t.constraintRows ≠ r := hpivotal.row.ne'
  have hcol : t.rhsCol ≠ c := hpivotal.col.ne'
  rw [objective, constraintRows_exchange, rhsCol_exchange, t.cell_exchange r c ht le_rfl,
    if_neg hrow, if_neg hcol, mul_div_assoc]
  rfl

theorem cost_pos (h : t.choice t.constraintRows = some ⟨some r, c⟩) :
    0 < t.cells.cell t.constraintRows c :=
  Grid.entering_pos (choice_eq_some h).1

theorem objective_exchange_le (ht : t.HasObjective)
    (h : t.choice t.constraintRows = some ⟨some r, c⟩) :
    (t.exchange r c).objective ≤ t.objective := by
  have hratio : 0 ≤ t.rhs r / t.cells.cell r c := (Grid.leaving_spec (choice_eq_some h).2).2.1
  rw [objective_exchange ht h]
  exact sub_le_self _ (mul_nonneg (cost_pos h).le hratio)

theorem objective_exchange_eq_iff (ht : t.HasObjective)
    (h : t.choice t.constraintRows = some ⟨some r, c⟩) :
    (t.exchange r c).objective = t.objective ↔ t.rhs r = 0 := by
  have hcell : t.cells.cell r c ≠ 0 := (Grid.leaving_spec (choice_eq_some h).2).1
  rw [objective_exchange ht h, sub_eq_self, mul_eq_zero, or_iff_right (cost_pos h).ne',
    div_eq_zero_iff, or_iff_left hcell]

theorem objective_advance_le (ht : t.HasObjective) : t.advance.objective ≤ t.objective := by
  unfold advance
  split
  · next r c hchoice => exact objective_exchange_le ht hchoice
  · exact le_rfl

theorem antitone_objective (ht : t.HasObjective) :
    Antitone fun k => (advance^[k] t).objective := by
  refine antitone_nat_of_succ_le fun k => ?_
  rw [Function.iterate_succ_apply']
  exact objective_advance_le ((reaches_iterate t k).hasObjective ht)

theorem objective_congr (hcells : t.cells = t'.cells)
    (hrows : t.constraintRows = t'.constraintRows) : t.objective = t'.objective := by
  rw [objective, objective, hcells, hrows, rhsCol_congr hcells]

/-- Where cells are repeated, the objective has stood still since they were first met. -/
theorem objective_iterate_eq {first last k : Nat} (ht : t.HasObjective)
    (hcells : (advance^[last] t).cells = (advance^[first] t).cells) (hfirst : first ≤ k)
    (hlast : k < last) : (advance^[k + 1] t).objective = (advance^[k] t).objective := by
  have hrows : (advance^[last] t).constraintRows = (advance^[first] t).constraintRows := by
    rw [(reaches_iterate t last).constraintRows, (reaches_iterate t first).constraintRows]
  have hanti := antitone_objective ht
  refine le_antisymm (hanti k.le_succ) ?_
  calc (advance^[k] t).objective
      ≤ (advance^[first] t).objective := hanti hfirst
    _ = (advance^[last] t).objective := (objective_congr hcells hrows).symm
    _ ≤ (advance^[k + 1] t).objective := hanti hlast

end Tableau

/-- A step is the selected pivot at a tableau, leads to the next one, and records the objective
there. -/
structure Step.Leads [Cell α] (s : Step α) (t t' : Tableau α) : Prop where
  selects : t.selectPivot t.constraintRows = .ok (some ⟨some s.row, s.col⟩)
  pivots : t.pivot s.row s.col = (t', none)
  objective : s.objective = t'.objective

namespace Solver

section Steps

variable [Cell α] {setting : Setting α κ} {options : Options} {p : LinearProgram α}
  {phase left done : Nat} {seen : List κ} {verbose : Bool} {t start : Tableau α}
  {run : PhaseRun α}

theorem PhaseCourse.leads (h : PhaseCourse setting verbose phase left done seen t run)
    (ht : t.HasObjective) {k : Nat} (hk : k < run.steps.length) :
    run.steps[k].Leads (advance^[k] t) (advance^[k + 1] t) := by
  obtain ⟨r, c, hchoice, hs⟩ := h.getElem_steps hk
  have ht' := (reaches_iterate t k).hasObjective ht
  rw [Function.iterate_succ_apply', hs]
  exact
    { selects := (selectPivot_eq_ok_iff ht').2 hchoice
      pivots := pivot_eq_advance ht' hchoice
      objective := congrArg Tableau.objective (advance_eq hchoice).symm }

variable [DecidableEq κ]

theorem PhaseOf.phase_eq (h : PhaseOf setting options p phase start run) {s : Step α}
    (hs : s ∈ run.steps) : s.phase = phase :=
  ((h.course.visits h.visits).2 s hs).phase_eq

theorem exists_phaseOf {report : Report α} (hsolve : solve setting options p = .ok report)
    {s : Step α} (hs : s ∈ report.result.steps) :
    ∃ start run, PhaseOf setting options p s.phase start run := by
  have hphase : ∃ phase start run, PhaseOf setting options p phase start run ∧ s ∈ run.steps := by
    cases solve_eq_ok_iff.1 hsolve with
    | first hone | infeasible hone => exact ⟨1, _, _, .first hone, hs⟩
    | second hone hstop hclear htwo | optimal hone hstop hclear htwo =>
      rcases List.mem_append.1 hs with hs | hs
      · exact ⟨1, _, _, .first hone, hs⟩
      · exact ⟨2, _, _, .second hone hstop hclear htwo, hs⟩
  obtain ⟨phase, start, run, h, hs⟩ := hphase
  rw [h.phase_eq hs]
  exact ⟨start, run, h⟩

/-- The steps that a solve gives for a phase are those of the run of the phase. -/
theorem PhaseOf.filter_steps (h : PhaseOf setting options p phase start run) {report : Report α}
    (hsolve : solve setting options p = .ok report) :
    report.result.steps.filter (·.phase = phase) = run.steps := by
  have hself {run' : PhaseRun α} (h' : PhaseOf setting options p phase start run') :
      run'.steps.filter (·.phase = phase) = run.steps := by
    rw [(h.unique h').2, List.filter_eq_self]
    exact fun s hs => decide_eq_true (h.phase_eq hs)
  have hother {phase' : Nat} {start' : Tableau α} {run' : PhaseRun α}
      (h' : PhaseOf setting options p phase' start' run') (hne : phase' ≠ phase) :
      run'.steps.filter (·.phase = phase) = [] := by
    rw [List.filter_eq_nil_iff]
    intro s hs
    rw [h'.phase_eq hs]
    exact mt of_decide_eq_true hne
  cases h with
  | first hone =>
    cases solve_eq_ok_iff.1 hsolve with
    | first hone' | infeasible hone' => exact hself (.first hone')
    | second hone' hstop hclear htwo | optimal hone' hstop hclear htwo =>
      have htwo' := hother (.second hone' hstop hclear htwo) (by decide)
      exact (List.filter_append ..).trans (by rw [hself (.first hone'), htwo', List.append_nil])
  | second hone hstop hclear htwo =>
    rw [solve_of_secondRun hone hstop hclear htwo] at hsolve
    cases hsolve
    have hone' := hother (.first hone) (by decide)
    exact (List.filter_append ..).trans
      (by rw [hone', hself (.second hone hstop hclear htwo), List.nil_append])

end Steps

variable {setting : Setting Rat κ} {options : Options} {p : LinearProgram Rat}
  {phase left done : Nat} {seen : List κ} {verbose : Bool} {t start : Tableau Rat}
  {run : PhaseRun Rat}

theorem PhaseCourse.objective_eq_iff
    (h : PhaseCourse setting verbose phase left done seen t run) (ht : t.HasObjective) {k : Nat}
    (hk : k < run.steps.length) :
    run.steps[k].objective = (advance^[k] t).objective ↔
      (advance^[k] t).rhs run.steps[k].row = 0 := by
  obtain ⟨r, c, hchoice, hs⟩ := h.getElem_steps hk
  rw [hs]
  exact objective_exchange_eq_iff ((reaches_iterate t k).hasObjective ht) hchoice

/-- The objective before a phase and those its steps record, in order. -/
theorem PhaseCourse.pairwise_objective
    (h : PhaseCourse setting verbose phase left done seen t run) (ht : t.HasObjective) :
    (t.objective :: run.steps.map Step.objective).Pairwise (· ≥ ·) := by
  induction h with
  | pivoted hchoice _ _ _ ih =>
    rw [List.map_cons, List.pairwise_cons_cons_iff_of_trans]
    exact ⟨objective_exchange_le ht hchoice, ih (hasObjective_exchange ht _ _)⟩
  | _ => exact List.pairwise_singleton _ _

variable [DecidableEq κ]

/-- In each phase of a solve the objective never increases, from the tableau before the first pivot
on, and a pivot leaves it as it is exactly if the right-hand side of its row is zero. Hence, if the
phase meets the cells of an earlier tableau again, the right-hand side of the pivot row was zero at
all pivots in between. -/
theorem objective_descends (setting : Setting Rat κ) (options : Options)
    (p : LinearProgram Rat) :
    ∃ report, solve setting options p = .ok report ∧
      (∀ s ∈ report.result.steps, ∃ start run, PhaseOf setting options p s.phase start run) ∧
      ∀ phase start run, PhaseOf setting options p phase start run →
        report.result.steps.filter (·.phase = phase) = run.steps ∧
        (start.objective :: run.steps.map Step.objective).Pairwise (· ≥ ·) ∧
        ∃ states : Nat → Tableau Rat, states 0 = start ∧ states run.pivots = run.tableau ∧
          (∀ k, ∀ hk : k < run.steps.length,
            run.steps[k].Leads (states k) (states (k + 1)) ∧
            (run.steps[k].objective = (states k).objective ↔
              (states k).rhs run.steps[k].row = 0)) ∧
          (KeysApart setting options p phase →
            report.result.outcome = .failed .cycleDetected phase →
            ∃ first < run.pivots, (states first).cells = run.tableau.cells ∧
              ∀ k, first ≤ k → ∀ hk : k < run.steps.length,
                (states k).rhs run.steps[k].row = 0) := by
  obtain ⟨report, hsolve⟩ := exists_solve setting options p
  refine ⟨report, hsolve, fun s hs => exists_phaseOf hsolve hs, fun phase start run h => ?_⟩
  have ht := h.visits.hasObjective
  have hstays {k : Nat} (hk : k < run.steps.length) := h.course.objective_eq_iff ht hk
  refine ⟨h.filter_steps hsolve, h.course.pairwise_objective ht, fun k => advance^[k] start, rfl,
    h.tableau_eq.symm, fun k hk => ⟨h.course.leads ht hk, hstays hk⟩, fun hkeys hout => ?_⟩
  obtain ⟨start', run', hrun', hstop, -⟩ := failed_phaseOf hsolve hout (by simp)
  obtain ⟨rfl, rfl⟩ := h.unique hrun'
  obtain ⟨first, hlt, hcells⟩ := h.cells_repeated hkeys hstop
  refine ⟨first, hlt, (h.tableau_eq ▸ hcells).symm, fun k hfirst hk => (hstays hk).1 ?_⟩
  rw [(h.course.leads ht hk).objective]
  exact objective_iterate_eq ht hcells hfirst (hk.trans_eq h.length_steps)

/-- The first pivot lowers the objective. The second one is made at a negative cell in a row whose
right-hand side is zero, and leads back to the cells that were there before it. -/
theorem objective_descends_to_cycle :
    let p := LinearProgram.ofRows (-1) [-2] [([1, 0], 1), ([0, -1], 0)] []
    KeysApart Setting.exact {} p 2 ∧ outcome Setting.exact {} p = .ok (.failed .cycleDetected 2) ∧
      ∃ start run, PhaseOf Setting.exact {} p 2 start run ∧
        run.steps.map (fun s => (s.row, s.objective)) = [(0, -1), (1, -1)] ∧
        ∃ states : Nat → Tableau Rat, states 0 = start ∧ states 2 = run.tableau ∧
          (∃ first < 2, (states first).cells = (states 2).cells) ∧ (states 1).rhs 1 = 0 := by
  intro p
  have hkeys := keysApart_exact {} p 2
  have hout : outcome Setting.exact {} p = .ok (.failed .cycleDetected 2) := by decide +kernel
  have hsteps : (solve Setting.exact {} p).map (fun report =>
      (report.result.steps.filter (·.phase = 2)).map fun s => (s.row, s.objective)) =
      .ok [(0, -1), (1, -1)] := by decide +kernel
  obtain ⟨report, h, -, hphase⟩ := objective_descends Setting.exact {} p
  have hfailed := hout
  rw [outcome, h] at hfailed
  rw [h] at hsteps
  obtain ⟨start, run, hrun, -, -⟩ := failed_phaseOf h (Except.ok.inj hfailed) (by simp)
  obtain ⟨hfilter, -, states, hzero, hlast, -, hcycle⟩ := hphase 2 start run hrun
  obtain ⟨first, hlt, hcells, hrhs⟩ := hcycle hkeys (Except.ok.inj hfailed)
  have hrows : run.steps.map (fun s => (s.row, s.objective)) = [(0, -1), (1, -1)] := by
    rw [← hfilter]
    exact Except.ok.inj hsteps
  have htwo : run.steps.length = 2 := by simpa using congrArg List.length hrows
  have hone : 1 < run.steps.length := by omega
  have hsecond := congrArg (·[1]?) hrows
  simp only [List.getElem?_map, List.getElem?_eq_getElem hone] at hsecond
  have hrow : run.steps[1].row = 1 := congrArg Prod.fst (Option.some.inj hsecond)
  rw [← hrun.length_steps, htwo] at hlt hlast
  have hstill := hrhs 1 (Nat.le_of_lt_succ hlt) hone
  rw [hrow] at hstill
  exact ⟨hkeys, hout, start, run, hrun, hrows, states, hzero, hlast,
    ⟨first, hlt, hlast ▸ hcells⟩, hstill⟩

end Solver

end TwoPhase
