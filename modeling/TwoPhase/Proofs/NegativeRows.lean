import TwoPhase.Proofs.Representation

/-!
Inequality rows with negative right-hand sides have no artificial variable, and nothing repairs
them but a pivot that happens to fall on them. An answer respects the inequalities exactly if each
of these rows ends nonnegative. Without equalities and with nonnegative costs there is no pivot at
all: the answer is the origin whatever the right-hand sides are. So for no list of right-hand
sides with a negative one can the answers be trusted.
-/
namespace TwoPhase

open Tableau

variable {κ : Type} [DecidableEq κ] {setting : Setting Rat κ} {options : Options}
  {p : LinearProgram Rat}

/-- What is read off respects the inequalities if and only if the negative rows end nonnegative. -/
theorem second_respects_iff {t : Tableau Rat} (h : SecondState p t) :
    (∀ a ∈ tabulate p.numCosts t.basicValue, 0 ≤ a) ∧
        List.Forall₂ (· ≤ ·) (p.upper.image (tabulate p.numCosts t.basicValue)) p.upper.rhs ↔
      ∀ i < p.inequalityRows, p.upper.rhs[i]?.getD 0 < 0 → 0 ≤ t.rhs i := by
  constructor
  · rintro ⟨hnonneg, hupper⟩ i hi -
    have hfeas : p.Feasible (tabulate p.numCosts t.basicValue) :=
      ⟨length_tabulate _ _, hnonneg, hupper, second_equal h⟩
    exact (second_feasible_iff h).1 hfeas i (Nat.lt_add_right _ hi)
  · intro hrows
    have hfeas : p.Feasible (tabulate p.numCosts t.basicValue) := by
      refine (second_feasible_iff h).2 fun i hi => ?_
      rcases second_rhs_nonneg_or h hi with h0 | ⟨hiu, hneg⟩
      · exact h0
      · exact hrows i hiu hneg
    exact ⟨hfeas.nonneg, hfeas.upper⟩

theorem helper_phaseOne (hm : p.equalityRows = 0) {j : Nat} (hj : j ≤ p.numCosts) :
    (phaseOne p).cells.cell p.constraintRows j = 0 := by
  rw [cell_phaseOne_helper p hj, helperEntry_eq_sum, hm, Finset.range_zero, Finset.sum_empty]

theorem choice_phaseOne (hm : p.equalityRows = 0) :
    (phaseOne p).choice (phaseOne p).constraintRows = none := by
  rw [choice, Option.map_eq_none_iff, Grid.entering_eq_none_iff, constraintRows_phaseOne,
    rhsCol_phaseOne]
  exact fun j hj => (helper_phaseOne hm hj.le).le

theorem cleared_phaseOne (hm : p.equalityRows = 0) : Cleared p (phaseOne p) where
  objective := by
    rw [objective, constraintRows_phaseOne, rhsCol_phaseOne, helper_phaseOne hm le_rfl]
    rfl
  basis k hk := by
    have := mem_varRange.1 hk
    rw [LinearProgram.constraintRows, hm] at this
    rw [LinearProgram.threshold]
    omega

theorem choice_compact_phaseOne (hcost : ∀ a ∈ p.cost, 0 ≤ a) (k : Int) :
    ((phaseOne p).compact k).choice ((phaseOne p).compact k).constraintRows = none := by
  rw [choice, Option.map_eq_none_iff, Grid.entering_eq_none_iff]
  intro j hj
  rw [rhsCol_compact] at hj
  have hlt : ((phaseOne p).keptCols k)[j] < p.numCosts := by
    have hmem := (List.mem_filter.1 (List.getElem_mem hj)).1
    exact (List.mem_range.1 hmem).trans_eq (rhsCol_phaseOne p)
  have hheight : (phaseOne p).cells.height - 1 = p.constraintRows + 1 := by simp
  rw [constraintRows_compact, cell_compact le_rfl hj, if_pos rfl, hheight,
    cell_phaseOne_cost p hlt.le, if_neg hlt.ne, neg_nonpos]
  cases hj' : p.cost[((phaseOne p).keptCols k)[j]]? with
  | none => exact le_rfl
  | some a => exact hcost a (List.mem_of_getElem? hj')

theorem tabulate_compact_phaseOne (k : Int) :
    tabulate p.numCosts ((phaseOne p).compact k).basicValue = List.replicate p.numCosts 0 := by
  refine List.eq_replicate_iff.2 ⟨length_tabulate _ _, fun a ha => ?_⟩
  obtain ⟨j, hj, rfl⟩ := List.mem_map.1 ha
  rw [List.mem_range] at hj
  have hnot : ((j : Int) + 1) ∉ ((phaseOne p).compact k).basis := fun hmem => by
    have := mem_varRange.1 hmem
    omega
  rw [basicValue, List.idxOf?_eq_none_iff.2 hnot]

theorem objective_compact_phaseOne (k : Int) : ((phaseOne p).compact k).objective = 0 := by
  have hheight : (phaseOne p).cells.height - 1 = p.constraintRows + 1 := by simp
  rw [objective, constraintRows_compact, cell_compact_rhs le_rfl, if_pos rfl, hheight,
    rhsCol_phaseOne, cell_phaseOne_cost p le_rfl, if_pos rfl]

/-- Without equalities and with nonnegative costs the answer is the origin. -/
theorem Solver.outcome_origin (hverbose : options.verbose = false) (hm : p.equalityRows = 0)
    (hcost : ∀ a ∈ p.cost, 0 ≤ a) :
    outcome setting options p = .ok (.optimal (List.replicate p.numCosts 0) p.offset) := by
  have hone : FirstRun setting options p (.halt (phaseOne p) 0 none []) := by
    rw [FirstRun, hverbose]
    exact runPhase_of_none setting false 1 _ 0 [] (hasObjective_phaseOne p) (choice_phaseOne hm)
  have htwo : SecondRun setting options p (.halt (phaseOne p) 0 none [])
      (.halt ((phaseOne p).compact p.threshold) 0 none []) := by
    rw [SecondRun, hverbose]
    exact runPhase_of_none setting false 2 _ 0 [] (hasObjective_compact (phaseOne p) _)
      (choice_compact_phaseOne hcost _)
  have hsolve := solve_eq_ok_iff.2 (.optimal hone rfl (cleared_phaseOne hm) htwo rfl)
  rw [outcome, hsolve]
  simp only [Except.map, secondReport, PhaseRun.halt, tabulate_compact_phaseOne,
    objective_compact_phaseOne, zero_add]

theorem Block.dot_origin {n : Nat} (b : Block Rat n) (i : Nat) :
    b.dot (List.replicate n 0) i = 0 := by
  refine Finset.sum_eq_zero fun j hj => ?_
  rw [List.getElem?_replicate_of_lt (Finset.mem_range.1 hj), Option.getD_some, mul_zero]

/-- The least number above the negated right-hand sides, as a program. -/
def LinearProgram.leastAbove (b : List Rat) : LinearProgram Rat :=
  .ofRows 1 [] (b.map fun a => ([-1], a)) []

theorem rhs_leastAbove (b : List Rat) : (LinearProgram.leastAbove b).upper.rhs = b := by
  simp [LinearProgram.leastAbove, LinearProgram.ofRows, Block.ofRows]

theorem Solver.outcome_leastAbove (setting : Setting Rat κ) (b : List Rat) :
    outcome setting {} (LinearProgram.leastAbove b) = .ok (.optimal [0] 0) :=
  outcome_origin rfl rfl (by simp [LinearProgram.leastAbove, LinearProgram.ofRows])

theorem Solver.answer_respects_iff {x : List Rat} {objective : Rat}
    (h : outcome setting options p = .ok (.optimal x objective)) :
    ∃ one two, FirstRun setting options p one ∧ SecondRun setting options p one two ∧
      ((∀ a ∈ x, 0 ≤ a) ∧ List.Forall₂ (· ≤ ·) (p.upper.image x) p.upper.rhs ↔
        ∀ i < p.inequalityRows, p.upper.rhs[i]?.getD 0 < 0 → 0 ≤ two.tableau.rhs i) := by
  obtain ⟨one, two, hone, htwo, hstate, -, rfl, -⟩ := optimal_course h
  exact ⟨one, two, hone, htwo, second_respects_iff hstate⟩

/-- An answer respects the inequalities if and only if each row that began negative ends
nonnegative. All answers for some right-hand sides do so if and only if none of these is
negative. -/
theorem Solver.answers_respect_upper_iff (setting : Setting Rat κ) :
    (∀ (options : Options) (p : LinearProgram Rat) (x : List Rat) (objective : Rat),
      outcome setting options p = .ok (.optimal x objective) →
        ∃ one two, FirstRun setting options p one ∧ SecondRun setting options p one two ∧
          ((∀ a ∈ x, 0 ≤ a) ∧ List.Forall₂ (· ≤ ·) (p.upper.image x) p.upper.rhs ↔
            ∀ i < p.inequalityRows, p.upper.rhs[i]?.getD 0 < 0 → 0 ≤ two.tableau.rhs i)) ∧
      ∀ b : List Rat,
        (∀ (options : Options) (p : LinearProgram Rat) (x : List Rat) (objective : Rat),
          p.upper.rhs = b → outcome setting options p = .ok (.optimal x objective) →
            (∀ a ∈ x, 0 ≤ a) ∧ List.Forall₂ (· ≤ ·) (p.upper.image x) p.upper.rhs) ↔
          ∀ a ∈ b, 0 ≤ a := by
  refine ⟨fun options p x objective h => answer_respects_iff h, fun b => ⟨?_, ?_⟩⟩
  · intro hall a ha
    have hupper := (hall {} _ [0] 0 (rhs_leastAbove b) (outcome_leastAbove setting b)).2
    rw [← rhs_leastAbove b] at ha
    obtain ⟨i, hi, rfl⟩ := Block.exists_rhs_getD _ ha
    have hdot : (LinearProgram.leastAbove b).upper.dot [0] i = 0 := Block.dot_origin _ i
    exact hdot.ge.trans ((Block.image_le_rhs_iff _ _).1 hupper i hi)
  · rintro hb options p x objective rfl h
    obtain ⟨one, two, -, -, hiff⟩ := answer_respects_iff h
    refine hiff.2 fun i hi hneg => ?_
    exact absurd (hb _ (p.upper.rhs_getD hi)) (not_le.2 hneg)

/-- A feasible program with an answer that is not feasible. -/
theorem Solver.answer_below_bound :
    outcome Setting.exact {} (LinearProgram.leastAbove [-1]) = .ok (.optimal [0] 0) ∧
      (LinearProgram.leastAbove [-1]).Feasible [1] ∧
      ¬List.Forall₂ (· ≤ ·) ((LinearProgram.leastAbove [-1]).upper.image [0])
        (LinearProgram.leastAbove [-1]).upper.rhs := by
  refine ⟨outcome_leastAbove _ _, ⟨rfl, by simp, ?_, ?_⟩, ?_⟩
  · decide +kernel
  · decide +kernel
  · decide +kernel

end TwoPhase
