import TwoPhase.Proofs.Representation

/-!
An answer is read off a tableau whose cost row has no positive entry. It solves the equalities,
its objective is the value of the point, and no feasible point has a smaller value. It is feasible,
and so optimal, where no right-hand side began negative.
-/
namespace TwoPhase

open Tableau

section SecondPhase

variable {p : LinearProgram Rat} {t : Tableau Rat}

theorem second_objective (h : SecondState p t) :
    t.objective = p.price (tabulate p.numCosts t.basicValue) := by
  obtain ⟨hholds, hzero⟩ := second_basicValue h
  rw [← second_price h hzero hholds, rowValue_basicValue (second_labels_nodup h)]
  rfl

theorem second_objective_le (h : SecondState p t) (hhalt : t.Halted none) {y : List Rat}
    (hy : p.Feasible y) : t.objective ≤ p.price y := by
  have hprice := second_price h (extension_of_feasible hy).2 (holds_extension p y)
  rw [tabulate_extension hy.length] at hprice
  rw [← hprice]
  exact objective_le_rowValue (second_labels_perm h) hhalt hy

end SecondPhase

namespace Solver

variable {κ : Type} [DecidableEq κ] {setting : Setting Rat κ} {options : Options}
  {p : LinearProgram Rat}

/-- An answer solves the equalities, has the value of its point and undercuts no feasible point.
It is optimal if the inequalities have nonnegative right-hand sides; those of the equalities can
have any sign. -/
theorem optimal_of_answer {x : List Rat} {objective : Rat}
    (h : outcome setting options p = .ok (.optimal x objective)) :
    x.length = p.numCosts ∧ p.equal.image x = p.equal.rhs ∧ objective = p.value x ∧
      (∀ y, p.Feasible y → objective ≤ p.value y) ∧
      ((∀ a ∈ p.upper.rhs, 0 ≤ a) → p.IsOptimal x) := by
  obtain ⟨one, two, -, -, hstate, hhalt, rfl, rfl⟩ := optimal_course h
  have hvalue : two.tableau.objective + p.offset =
      p.value (tabulate p.numCosts two.tableau.basicValue) := by
    rw [second_objective hstate, LinearProgram.value]
  have hleast : ∀ y, p.Feasible y → two.tableau.objective + p.offset ≤ p.value y :=
    fun y hy => add_le_add_left (second_objective_le hstate hhalt hy) p.offset
  refine ⟨length_tabulate _ _, second_equal hstate, hvalue, hleast, fun hb => ⟨?_, ?_⟩⟩
  · exact (second_feasible_iff hstate).2 fun _ => second_rhs_nonneg hb hstate
  · intro y hy
    rw [← hvalue]
    exact hleast y hy

/-- A program whose solve pivots in both phases. -/
theorem optimal_of_answer_both_phases :
    let p := LinearProgram.ofRows 1 [-3, 2, 0, 0] [([1, 0, -1, 0, 0], 4)]
      [([1, -1, 0, -1, 0], 1), ([0, 1, -2, 0, -1], 1)]
    outcome Setting.exact {} p = .ok (.optimal [6, 5, 2, 0, 0] (-5)) ∧
      p.IsOptimal [6, 5, 2, 0, 0] := by
  intro p
  have h : outcome Setting.exact {} p = .ok (.optimal [6, 5, 2, 0, 0] (-5)) := by decide +kernel
  exact ⟨h, (optimal_of_answer h).2.2.2.2 (by decide +kernel)⟩

end Solver

end TwoPhase
