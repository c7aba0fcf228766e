import TwoPhase.Proofs.IterationLimit

/-!
Cycles are real. A key leaves out the variables of rows and columns, but pivots are chosen and
made by the cells alone, so a phase that meets the cells of an earlier tableau again would repeat
its pivots for ever. It is assumed that keys tell apart the grids that the phase visits; nothing is
assumed of the arithmetic.
-/
namespace TwoPhase

open Tableau

theorem Grid.eq_of_toLists_eq {α : Type} {g g' : Grid α} (h : g.toLists = g'.toLists)
    (hpos : 0 < g.height) : g = g' := by
  have hinj : Function.Injective (Array.toList : Array α → List α) := fun _ _ => Array.toList_inj.1
  have hrows : g.rows = g'.rows := Array.toList_inj.1 (hinj.list_map h)
  have hrow : g.rows[0] ∈ g.rows := Array.getElem_mem hpos
  have hrow' : g.rows[0] ∈ g'.rows := by
    rw [← hrows]
    exact hrow
  have hwidth : g.width = g'.width := by rw [← g.size_row _ hrow, g'.size_row _ hrow']
  cases g
  cases g'
  cases hrows
  cases hwidth
  rfl

variable {α κ : Type} [Cell α]

/-- The tableaus of a phase that has neither a limit nor a history and never ends: at each of them
a bounded pivot is selected and made. -/
def Tableau.Endless (states : Nat → Tableau α) : Prop :=
  ∀ k, ∃ r c : Nat, (states k).selectPivot (states k).constraintRows = .ok (some ⟨some r, c⟩) ∧
    (states k).pivot r c = (states (k + 1), none)

theorem Tableau.endless_iterate {t : Tableau α} (ht : t.HasObjective)
    (hpivot : ∀ k, (advance^[k] t).HasPivot) : Endless fun k => advance^[k] t := by
  intro k
  simp only [Function.iterate_succ_apply']
  exact (hpivot k).pivot_eq_advance ((reaches_iterate t k).hasObjective ht)

namespace Solver

variable {setting : Setting α κ} {options : Options} {p : LinearProgram α} {phase : Nat}

variable (setting options p) in
/-- No two grids that a phase of a solve visits share a key. -/
def KeysApart (phase : Nat) : Prop :=
  ∀ left seen t left' seen' t', Visits setting options p phase left seen t →
    Visits setting options p phase left' seen' t' →
      setting.key t.cells = setting.key t'.cells → t.cells = t'.cells

/-- Grids that are remembered entry by entry are told apart. -/
theorem keysApart_exact (options : Options) (p : LinearProgram Rat) (phase : Nat) :
    KeysApart Setting.exact options p phase := by
  intro left seen t left' seen' t' hvisit _ hkey
  exact Grid.eq_of_toLists_eq hkey (Nat.zero_lt_of_lt hvisit.hasObjective)

variable [DecidableEq κ] {start : Tableau α} {run : PhaseRun α}

/-- The grid at which a phase finds a cycle is that of an earlier tableau of the phase. -/
theorem PhaseOf.cells_repeated (hkeys : KeysApart setting options p phase)
    (h : PhaseOf setting options p phase start run) (hstop : run.stop = some .cycleDetected) :
    ∃ first < run.pivots,
      (advance^[run.pivots] start).cells = (advance^[first] start).cells := by
  have hkey := h.trail.cycled hstop
  rw [List.append_nil, mem_trailKeys, h.length_steps, h.tableau_eq] at hkey
  obtain ⟨first, hlt, hkey⟩ := hkey
  have hvisits {k : Nat} (hk : k ≤ run.pivots) :=
    h.course.visits_iterate h.visits (hk.trans_eq h.length_steps.symm)
  obtain ⟨left, seen, hfirst⟩ := hvisits hlt.le
  obtain ⟨left', seen', hlast⟩ := hvisits le_rfl
  exact ⟨first, hlt, hkeys _ _ _ _ _ _ hlast hfirst hkey.symm⟩

/-- If a solve finds a cycle in a phase, the phase would pivot for ever without its limit and its
history, and from the repeated tableau on its cells are periodic. The limit plays no part: the
result is the same under every larger one. -/
theorem endless_of_cycle (hkeys : KeysApart setting options p phase) {report : Report α}
    (h : solve setting options p = .ok report)
    (hout : report.result.outcome = .failed .cycleDetected phase) :
    (∃ start run, PhaseOf setting options p phase start run ∧
      report.result.pivots phase = run.pivots ∧
      ∃ states : Nat → Tableau α, states 0 = start ∧ states run.pivots = run.tableau ∧
        Endless states ∧ ∃ first < run.pivots, ∀ k, first ≤ k →
          (states (k + (run.pivots - first))).cells = (states k).cells) ∧
    ∀ options' : Options, options.maxIterations ≤ options'.maxIterations →
      ∃ report', solve setting options' p = .ok report' ∧ report'.result = report.result := by
  refine ⟨?_, fun options' hle => ?_⟩
  · obtain ⟨start, run, hrun, hstop, hpivots⟩ := failed_phaseOf h hout (by simp)
    obtain ⟨first, hlt, hcells⟩ := hrun.cells_repeated hkeys hstop
    have hbefore : ∀ k < run.pivots, (advance^[k] start).HasPivot :=
      fun k hk => hrun.trail.hasPivot k (hk.trans_eq hrun.length_steps.symm)
    exact ⟨start, run, hrun, hpivots, fun k => advance^[k] start, rfl, hrun.tableau_eq.symm,
      endless_iterate hrun.visits.hasObjective (hasPivot_iterate hlt hcells hbefore),
      first, hlt, fun k hk => cells_iterate_periodic hlt hcells hk⟩
  · obtain ⟨report', h'⟩ := exists_solve setting options' p
    exact ⟨report', h', (extends_of_le hle h h').eq (by simp [hout])⟩

/-- A right-hand side of zero lets a negative cell be pivoted at, which leaves all cells as they
are: the cycle is found after one pivot, with the two variables exchanged. -/
theorem endless_round_trip :
    let p := LinearProgram.ofRows (-1) [] [([-1], 0)] []
    KeysApart Setting.exact {} p 2 ∧ outcome Setting.exact {} p = .ok (.failed .cycleDetected 2) ∧
      ∃ states : Nat → Tableau Rat, Endless states ∧
        ∀ k, (states (k + 1)).cells = (states k).cells := by
  intro p
  have hkeys := keysApart_exact {} p 2
  have hout : outcome Setting.exact {} p = .ok (.failed .cycleDetected 2) := by decide +kernel
  have hcount : (solve Setting.exact {} p).map (·.result.pivots 2) = .ok 1 := by decide +kernel
  obtain ⟨report, h⟩ := exists_solve Setting.exact {} p
  have hfailed := hout
  rw [outcome, h] at hfailed
  rw [h] at hcount
  obtain ⟨⟨start, run, -, hpivots, states, -, -, hendless, first, hlt, hperiod⟩, -⟩ :=
    endless_of_cycle hkeys h (Except.ok.inj hfailed)
  have hone : run.pivots = 1 := hpivots.symm.trans (Except.ok.inj hcount)
  obtain rfl : first = 0 := by omega
  rw [hone] at hperiod
  exact ⟨hkeys, hout, states, hendless, fun k => hperiod k (Nat.zero_le k)⟩

end Solver

end TwoPhase
