import Mathlib.Data.List.Permutation
import TwoPhase.Proofs.Cycling
import TwoPhase.Proofs.Partition
import TwoPhase.Proofs.Representation

/-!
A bound on the pivots of a phase, over the rationals. The order in which variables stand in the
rows and columns determines all cells that pivots can lead to, since the rows are equations and
the variables of the columns are free. A history never lets the same cells pass twice, so a phase
makes at most as many pivots as the variables have orders. No objective has to decrease, and keys
may collide.
-/
namespace TwoPhase

open Tableau

namespace Tableau

variable {t t₁ t₂ : Tableau Rat}

/-- Rows that give the same for all values of the column variables have the same cells. -/
theorem cells_eq_of_rowValue (hn : t₁.labels.Nodup) (hnonbasis : t₁.nonbasis = t₂.nonbasis)
    (hheight : t₁.cells.height = t₂.cells.height)
    (h : ∀ u, ∀ i < t₁.cells.height, t₁.rowValue u i = t₂.rowValue u i)
    (hn₂ : t₂.labels.Nodup) : t₁.cells = t₂.cells := by
  have hcols : t₁.rhsCol = t₂.rhsCol := congrArg List.length hnonbasis
  have hrhs : ∀ i < t₁.cells.height, t₁.rhs i = t₂.rhs i := by
    intro i hi
    have hzero := h (fun _ => 0) i hi
    rwa [rowValue_zero, rowValue_zero] at hzero
  refine Grid.ext_cell hheight (by rw [t₁.width_cells, t₂.width_cells, hnonbasis]) ?_
  intro i j hi hj
  rw [t₁.width_cells] at hj
  rcases Nat.lt_succ_iff_lt_or_eq.1 hj with hj | rfl
  · -- one unit of the variable of the column
    have hvar : t₁.colVar j = t₂.colVar j := by rw [colVar, colVar, hnonbasis]
    have hunit := h (fun k => if k = t₁.colVar j then 1 else 0) i hi
    rw [rowValue_single hn hj, hvar, rowValue_single hn₂ (hcols ▸ hj), hrhs i hi] at hunit
    linarith
  · have hlast := hrhs i hi
    rw [rhs, rhs, ← hcols] at hlast
    exact hlast

/-- However two sequences of exchanges lead from a tableau, the order of the variables determines
the cells. -/
theorem Exchanges.cells_eq (hm : t.constraintRows ≤ t.cells.height) (hn : t.labels.Nodup)
    (h₁ : Exchanges t t₁) (h₂ : Exchanges t t₂) (hbasis : t₁.basis = t₂.basis)
    (hnonbasis : t₁.nonbasis = t₂.nonbasis) : t₁.cells = t₂.cells := by
  have hn₁ := h₁.labels_perm.nodup_iff.2 hn
  have hn₂ := h₂.labels_perm.nodup_iff.2 hn
  have hcols : t₁.rhsCol = t₂.rhsCol := congrArg List.length hnonbasis
  have hsys₁ := h₁.sameSystem hm
  have hsys₂ := h₂.sameSystem hm
  refine cells_eq_of_rowValue hn₁ hnonbasis (h₁.height.trans h₂.height.symm) ?_ hn₂
  intro u i hi
  rw [h₁.height] at hi
  -- the solution with these values of the column variables solves all three tableaus
  have hv₁ := holds_point hn₁ u
  have hv := (hsys₁.holds _).1 hv₁
  have hv₂ := (hsys₂.holds _).2 hv
  have hfree : t₂.rowValue (t₁.point u) i = t₂.rowValue u i := by
    refine t₂.rowValue_congr (fun j hj => ?_) i
    have hvar : t₂.colVar j = t₁.colVar j := by rw [colVar, colVar, hnonbasis]
    rw [hvar]
    exact point_colVar hn₁ u (hcols ▸ hj)
  rw [← rowValue_point hn₁ u i, ← hfree]
  by_cases hrow : i < t.constraintRows
  · have hvar : t₁.rowVar i = t₂.rowVar i := by rw [rowVar, rowVar, hbasis]
    rw [← hv₁ i (h₁.constraintRows.symm ▸ hrow), ← hv₂ i (h₂.constraintRows.symm ▸ hrow), hvar]
  · rw [hsys₁.rowValue _ hv i (not_lt.1 hrow) hi, hsys₂.rowValue _ hv i (not_lt.1 hrow) hi]

theorem Exchanges.cells_eq_of_labels (hm : t.constraintRows ≤ t.cells.height)
    (hn : t.labels.Nodup) (h₁ : Exchanges t t₁) (h₂ : Exchanges t t₂)
    (hlabels : t₁.labels = t₂.labels) : t₁.cells = t₂.cells := by
  have hrows : t₁.basis.length = t₂.basis.length := h₁.constraintRows.trans h₂.constraintRows.symm
  obtain ⟨hbasis, hnonbasis⟩ := List.append_inj hlabels hrows
  exact h₁.cells_eq hm hn h₂ hbasis hnonbasis

end Tableau

/-- There are at most as many distinct orders of a list as its length has permutations. -/
theorem length_le_factorial {β : Type} [DecidableEq β] {orders : List (List β)} {base : List β}
    (hnodup : orders.Nodup) (h : ∀ order ∈ orders, order.Perm base) :
    orders.length ≤ base.length.factorial := by
  have hsub : orders ⊆ base.permutations := fun order ho => List.mem_permutations.2 (h order ho)
  exact ((hnodup.subperm hsub).length_le).trans_eq (List.length_permutations base)

namespace Solver

variable {κ : Type} {setting : Setting Rat κ} {options : Options} {p : LinearProgram Rat}
  {phase left done : Nat} {seen : List κ} {t : Tableau Rat} {run : PhaseRun Rat}

theorem Trail.nodup_labels (h : Trail setting left done [] t run)
    (hm : t.constraintRows ≤ t.cells.height) (hn : t.labels.Nodup) :
    ((List.iterate advance t run.steps.length).map labels).Nodup := by
  have hkeys : (trailKeys setting t run.steps.length).Nodup := by
    have hkeys := h.nodup List.nodup_nil
    rwa [List.append_nil] at hkeys
  refine (List.nodup_map_iff_inj_on (List.Nodup.of_map _ hkeys)).2 ?_
  intro t₁ ht₁ t₂ ht₂ hlabels
  refine List.inj_on_of_nodup_map hkeys ht₁ ht₂ ?_
  obtain ⟨k₁, -, rfl⟩ := List.mem_iterate.1 ht₁
  obtain ⟨k₂, -, rfl⟩ := List.mem_iterate.1 ht₂
  rw [(reaches_iterate t k₁).exchanges.cells_eq_of_labels hm hn (reaches_iterate t k₂).exchanges
    hlabels]

theorem Trail.length_le (h : Trail setting left done [] t run)
    (hm : t.constraintRows ≤ t.cells.height) {count : Nat}
    (hperm : t.labels.Perm (varRange 1 count)) : run.steps.length ≤ count.factorial := by
  have horder : ∀ order ∈ (List.iterate advance t run.steps.length).map labels,
      order.Perm (varRange 1 count) := by
    intro order ho
    obtain ⟨t', ht', rfl⟩ := List.mem_map.1 ho
    obtain ⟨k, -, rfl⟩ := List.mem_iterate.1 ht'
    exact (reaches_iterate t k).labels_perm.trans hperm
  have hlength := length_le_factorial (h.nodup_labels hm (nodup_of_labels_perm hperm)) horder
  rwa [List.length_map, List.length_iterate, length_varRange] at hlength

variable [DecidableEq κ]

theorem PhaseOf.pivots_le {start : Tableau Rat} (h : PhaseOf setting options p phase start run) :
    run.pivots ≤ p.numVariables.factorial := by
  have hm := le_of_lt h.visits.hasObjective
  rw [← h.length_steps]
  rcases h.visits.partition with ⟨-, hpart⟩ | ⟨-, hpart, -⟩
  · exact h.trail.length_le hm hpart.perm
  · exact (h.trail.length_le hm hpart.perm).trans (Nat.factorial_le (Nat.le_add_right _ _))

/-- Each phase makes at most as many pivots as the variables have orders. If the limit is above
that, no phase is stopped by it: the program is solved, found infeasible, found unbounded, or found
to cycle. -/
theorem pivots_le_factorial (setting : Setting Rat κ) (options : Options)
    (p : LinearProgram Rat) :
    ∃ report, solve setting options p = .ok report ∧
      report.result.iterations.1 ≤ p.numVariables.factorial ∧
      report.result.iterations.2 ≤ p.numVariables.factorial ∧
      (p.numVariables.factorial < options.maxIterations →
        (∃ x objective, report.result.outcome = .optimal x objective) ∨
          ∃ reason ∈ [FailureReason.infeasible, .unbounded, .cycleDetected], ∃ phase,
            report.result.outcome = .failed reason phase) := by
  obtain ⟨report, h⟩ := exists_solve setting options p
  obtain ⟨⟨_, one, hone, hfirst⟩, hsecond⟩ := iterations_of_solve h
  refine ⟨report, h, hfirst.trans_le hone.pivots_le, ?_, fun hlimit => ?_⟩
  · rcases hsecond with hzero | ⟨_, two, htwo, hsecond⟩
    · exact hzero.trans_le (Nat.zero_le _)
    · exact hsecond.trans_le htwo.pivots_le
  · cases hout : report.result.outcome with
    | optimal x objective => exact .inl ⟨x, objective, rfl⟩
    | failed reason phase =>
      refine .inr ⟨reason, ?_, phase, rfl⟩
      cases reason with
      | iterationsExceeded =>
        obtain ⟨start, run, hrun, hstop, -⟩ := failed_phaseOf h hout (by simp)
        have hlength := (hrun.exceeded hstop).1
        have hle := hrun.length_steps.trans_le hrun.pivots_le
        omega
      | infeasible | unbounded | cycleDetected => simp

/-- A variable and a slack have two orders, so two pivots are the most. -/
theorem pivots_le_factorial_round_trip :
    let p := LinearProgram.ofRows (-1) [] [([-1], 0)] []
    p.numVariables.factorial = 2 ∧ 2 < ({} : Options).maxIterations ∧
      ∃ report, solve Setting.exact {} p = .ok report ∧ report.result.iterations.2 ≤ 2 ∧
        ((∃ x objective, report.result.outcome = .optimal x objective) ∨
          ∃ reason ∈ [FailureReason.infeasible, .unbounded, .cycleDetected], ∃ phase,
            report.result.outcome = .failed reason phase) := by
  intro p
  have hcount : p.numVariables.factorial = 2 := by decide +kernel
  have hlimit : 2 < ({} : Options).maxIterations := by decide
  obtain ⟨report, h, -, hsecond, hreason⟩ := pivots_le_factorial Setting.exact {} p
  rw [hcount] at hsecond hreason
  exact ⟨hcount, hlimit, report, h, hsecond, hreason hlimit⟩

end Solver

end TwoPhase
