import TwoPhase.Proofs.BasicSolution
import TwoPhase.Proofs.Run

/-!
The courses of a solve: it stops in the first phase, finds the program infeasible after it, stops
in the second phase, or ends with a solution. Every tableau on the way arranges the variables
from one on, so the last one can be read off. Nothing is assumed of the arithmetic.
-/
namespace TwoPhase

open Tableau

variable {α κ : Type} [Cell α]

omit [Cell α] in
/-- The last variable that is not artificial. -/
def LinearProgram.threshold (p : LinearProgram α) : Nat := p.numCosts + p.inequalityRows

section FirstTableau

variable (p : LinearProgram α)

@[simp] theorem constraintRows_phaseOne :
    (phaseOne p).constraintRows = p.constraintRows := length_varRange ..

@[simp] theorem rhsCol_phaseOne : (phaseOne p).rhsCol = p.numCosts := length_varRange ..

@[simp] theorem height_cells_phaseOne :
    (phaseOne p).cells.height = p.constraintRows + 2 := Grid.height_ofFn ..

theorem hasObjective_phaseOne : (phaseOne p).HasObjective := by
  simp [HasObjective]

end FirstTableau

/-- No artificial variable is basic and the sum of the artificial variables is zero. -/
structure Cleared (p : LinearProgram α) (t : Tableau α) : Prop where
  objective : Cell.isZero t.objective = true
  basis : ∀ k ∈ t.basis, k ≤ (p.threshold : Int)

theorem cleared_iff {p : LinearProgram α} {t : Tableau α} :
    Cleared p t ↔
      (!Cell.isZero t.objective || t.basis.any ((p.threshold : Int) < ·)) = false := by
  simp only [Bool.or_eq_false_iff, Bool.not_eq_false', List.any_eq_false, decide_eq_true_eq,
    not_lt]
  exact ⟨fun h => ⟨h.objective, h.basis⟩, fun h => ⟨h.1, h.2⟩⟩

def SecondState (p : LinearProgram α) (t : Tableau α) : Prop :=
  ∃ t₁, Reaches (phaseOne p) t₁ ∧ t₁.Halted none ∧ Cleared p t₁ ∧
    Reaches (t₁.compact p.threshold) t

section States

variable {p : LinearProgram α} {t : Tableau α}

theorem exchanges_constraintRows (h : Exchanges (phaseOne p) t) :
    t.constraintRows = p.constraintRows := by
  rw [h.constraintRows, constraintRows_phaseOne]

theorem exchanges_height (h : Exchanges (phaseOne p) t) :
    t.cells.height = p.constraintRows + 2 := by
  rw [h.height, height_cells_phaseOne]

theorem exchanges_labels_perm (h : Exchanges (phaseOne p) t) :
    t.labels.Perm (varRange 1 (p.threshold + p.equalityRows)) := by
  rw [LinearProgram.threshold, Nat.add_assoc]
  exact h.labels_perm.trans (labels_phaseOne_perm p)

theorem first_constraintRows (h : Reaches (phaseOne p) t) :
    t.constraintRows = p.constraintRows :=
  exchanges_constraintRows h.exchanges

theorem first_labels_perm (h : Reaches (phaseOne p) t) :
    t.labels.Perm (varRange 1 (p.threshold + p.equalityRows)) :=
  exchanges_labels_perm h.exchanges

theorem hasObjective_compact (t : Tableau α) (k : Int) : (t.compact k).HasObjective := by
  simp [HasObjective]

theorem second_labels_perm (h : SecondState p t) :
    t.labels.Perm (varRange 1 p.threshold) := by
  obtain ⟨t₁, hfirst, -, hclear, hsecond⟩ := h
  exact hsecond.labels_perm.trans (labels_compact_perm (first_labels_perm hfirst) hclear.basis)

theorem SecondState.constraintRows (h : SecondState p t) :
    t.constraintRows = p.constraintRows := by
  obtain ⟨t₁, hfirst, -, -, hsecond⟩ := h
  rw [hsecond.constraintRows, constraintRows_compact, first_constraintRows hfirst]

theorem SecondState.height (h : SecondState p t) : t.cells.height = p.constraintRows + 1 := by
  obtain ⟨t₁, hfirst, -, -, hsecond⟩ := h
  rw [hsecond.height, height_cells_compact, first_constraintRows hfirst]

omit [Cell α] in
theorem mem_of_labels_perm {count : Nat} (h : t.labels.Perm (varRange 1 count)) {k : Int} :
    k ∈ t.labels ↔ 1 ≤ k ∧ k ≤ count := by
  rw [h.mem_iff, mem_varRange]
  omega

omit [Cell α] in
theorem nodup_of_labels_perm {count : Nat} (h : t.labels.Perm (varRange 1 count)) :
    t.labels.Nodup := h.nodup_iff.2 (nodup_varRange 1 count)

theorem first_labels_nodup (h : Reaches (phaseOne p) t) : t.labels.Nodup :=
  nodup_of_labels_perm (first_labels_perm h)

theorem second_labels_nodup (h : SecondState p t) : t.labels.Nodup :=
  nodup_of_labels_perm (second_labels_perm h)

theorem SecondState.solution_eq (h : SecondState p t) (n : Nat) :
    t.solution n = .ok (tabulate n t.basicValue) := by
  have hperm := second_labels_perm h
  refine Tableau.solution_eq t (by rw [h.constraintRows, h.height]; omega) ?_ ?_ n
  · exact (List.nodup_append.1 (second_labels_nodup h)).1
  · exact fun k hk => ((mem_of_labels_perm hperm).1 (List.mem_append_left _ hk)).1

end States

theorem read_objective {t : Tableau α} (ht : t.HasObjective) :
    t.cells.read t.constraintRows t.rhsCol = .ok t.objective :=
  Grid.read_natCast _ ht (by rw [t.width_cells]; exact Nat.lt_succ_self _)

theorem SecondState.read_corner {p : LinearProgram α} {t : Tableau α} (h : SecondState p t) :
    t.cells.read (-1) (-1) = .ok t.objective := by
  have ht : t.cells.height = t.constraintRows + 1 := by rw [h.height, h.constraintRows]
  have hpos : position? (-1) t.cells.height = some t.constraintRows := by
    rw [position?, if_neg (by omega), if_pos (by omega), ht]
    congr 1
    omega
  rw [objective, ← read_rhs t (by omega : t.constraintRows < t.cells.height), Grid.read,
    Grid.read, hpos, position?_natCast (by omega : t.constraintRows < t.cells.height)]

namespace Solver

variable [DecidableEq κ] (setting : Setting α κ) (options : Options) (p : LinearProgram α)

def firstReport (one : PhaseRun α) (reason : FailureReason) : Report α where
  result :=
    { outcome := .failed reason 1, iterations := (one.pivots, 0), steps := one.steps }
  tables := one.tables
  compactShape := none

def secondReport (p : LinearProgram α) (one two : PhaseRun α) (outcome : Outcome α) :
    Report α where
  result :=
    { outcome, iterations := (one.pivots, two.pivots), steps := one.steps ++ two.steps }
  tables := one.tables ++ two.tables
  compactShape :=
    let start := one.tableau.compact p.threshold
    some (start.cells.height, start.cells.width)

def FirstRun (one : PhaseRun α) : Prop :=
  runPhase setting options.verbose 1 options.maxIterations 0 [] (phaseOne p) = .ok one

def SecondRun (one two : PhaseRun α) : Prop :=
  runPhase setting options.verbose 2 options.maxIterations 0 []
    (one.tableau.compact p.threshold) = .ok two

variable {setting options p} in
theorem FirstRun.unique {one one' : PhaseRun α} (h : FirstRun setting options p one)
    (h' : FirstRun setting options p one') : one' = one :=
  Except.ok.inj (Eq.trans (Eq.symm h') h)

variable {setting options p} in
theorem SecondRun.unique {one two two' : PhaseRun α} (h : SecondRun setting options p one two)
    (h' : SecondRun setting options p one two') : two' = two :=
  Except.ok.inj (Eq.trans (Eq.symm h') h)

/-- The reports of the four courses. -/
inductive Course : Report α → Prop
  | first {one : PhaseRun α} {reason : FailureReason} (hone : FirstRun setting options p one)
      (hstop : one.stop = some reason) : Course (firstReport one reason)
  | infeasible {one : PhaseRun α} (hone : FirstRun setting options p one)
      (hstop : one.stop = none) (hclear : ¬Cleared p one.tableau) :
      Course (firstReport one .infeasible)
  | second {one two : PhaseRun α} {reason : FailureReason}
      (hone : FirstRun setting options p one) (hstop : one.stop = none)
      (hclear : Cleared p one.tableau) (htwo : SecondRun setting options p one two)
      (hstop' : two.stop = some reason) : Course (secondReport p one two (.failed reason 2))
  | optimal {one two : PhaseRun α} (hone : FirstRun setting options p one)
      (hstop : one.stop = none) (hclear : Cleared p one.tableau)
      (htwo : SecondRun setting options p one two) (hstop' : two.stop = none) :
      Course (secondReport p one two
        (.optimal (tabulate p.numCosts two.tableau.basicValue)
          (two.tableau.objective + p.offset)))

variable {setting options p}

theorem FirstRun.reaches {one : PhaseRun α} (h : FirstRun setting options p one) :
    Reaches (phaseOne p) one.tableau ∧ one.tableau.Halted one.stop :=
  runPhase_reaches (hasObjective_phaseOne p) h

theorem SecondRun.state {one two : PhaseRun α} (hone : FirstRun setting options p one)
    (hstop : one.stop = none) (hclear : Cleared p one.tableau)
    (h : SecondRun setting options p one two) :
    SecondState p two.tableau ∧ two.tableau.Halted two.stop := by
  obtain ⟨hfirst, hhalt⟩ := hone.reaches
  obtain ⟨hsecond, hhalt'⟩ := runPhase_reaches (hasObjective_compact _ _) h
  exact ⟨⟨one.tableau, hfirst, hstop ▸ hhalt, hclear, hsecond⟩, hhalt'⟩

section Equations

variable {one : PhaseRun α} (hone : FirstRun setting options p one)
include hone

theorem solve_of_stopped {reason : FailureReason} (hstop : one.stop = some reason) :
    solve setting options p = .ok (firstReport one reason) := by
  rw [FirstRun] at hone
  rw [solve, hone]
  simp only [bind, Except.bind, hstop]
  rfl

theorem solve_of_not_cleared (hstop : one.stop = none) (hclear : ¬Cleared p one.tableau) :
    solve setting options p = .ok (firstReport one .infeasible) := by
  have hread := read_objective (hone.reaches.1.hasObjective (hasObjective_phaseOne p))
  have hcond := Bool.eq_true_of_not_eq_false (mt cleared_iff.2 hclear)
  rw [FirstRun] at hone
  rw [solve, hone]
  simp only [bind, Except.bind, hstop, hread]
  rw [if_pos (by simpa [LinearProgram.threshold] using hcond)]
  rfl

theorem solve_of_cleared (hstop : one.stop = none) (hclear : Cleared p one.tableau) :
    solve setting options p = do
      let two ← runPhase setting options.verbose 2 options.maxIterations 0 []
        (one.tableau.compact p.threshold)
      match two.stop with
      | some reason => return secondReport p one two (.failed reason 2)
      | none =>
        let x ← two.tableau.solution p.numCosts
        let corner ← two.tableau.cells.read (-1) (-1)
        return secondReport p one two (.optimal x (corner + p.offset)) := by
  have hobj := hone.reaches.1.hasObjective (hasObjective_phaseOne p)
  rw [FirstRun] at hone
  rw [solve, hone]
  simp only [bind, Except.bind, hstop, read_objective hobj]
  rw [if_neg (by simpa [LinearProgram.threshold] using cleared_iff.1 hclear),
    ← LinearProgram.threshold, dropColumnsAbove_eq _ _ hobj]
  rfl

end Equations

/-- A solve returns the report of its course, and of no other. -/
theorem solve_eq_ok_iff {report : Report α} :
    solve setting options p = .ok report ↔ Course setting options p report := by
  constructor
  · intro h
    obtain ⟨one, hone, -⟩ := bind_eq_ok.1 h
    have hone : FirstRun setting options p one := hone
    cases hstop : one.stop with
    | some reason =>
      rw [solve_of_stopped hone hstop] at h
      cases h
      exact .first hone hstop
    | none =>
      by_cases hclear : Cleared p one.tableau
      · rw [solve_of_cleared hone hstop hclear] at h
        obtain ⟨two, htwo, h⟩ := bind_eq_ok.1 h
        have htwo : SecondRun setting options p one two := htwo
        have hstate := (htwo.state hone hstop hclear).1
        cases hstop' : two.stop with
        | some reason =>
          rw [hstop'] at h
          cases h
          exact .second hone hstop hclear htwo hstop'
        | none =>
          rw [hstop', hstate.solution_eq, hstate.read_corner] at h
          cases h
          exact .optimal hone hstop hclear htwo hstop'
      · rw [solve_of_not_cleared hone hstop hclear] at h
        cases h
        exact .infeasible hone hstop hclear
  · intro h
    cases h with
    | first hone hstop => exact solve_of_stopped hone hstop
    | infeasible hone hstop hclear => exact solve_of_not_cleared hone hstop hclear
    | second hone hstop hclear htwo hstop' =>
      rw [solve_of_cleared hone hstop hclear, bind_eq_ok]
      exact ⟨_, htwo, by rw [hstop']; rfl⟩
    | optimal hone hstop hclear htwo hstop' =>
      have hstate := (htwo.state hone hstop hclear).1
      rw [solve_of_cleared hone hstop hclear, bind_eq_ok]
      refine ⟨_, htwo, ?_⟩
      rw [hstop', hstate.solution_eq, hstate.read_corner]
      rfl

variable (setting options p) in
def outcome : Except TableauFault (Outcome α) :=
  (solve setting options p).map (·.result.outcome)

theorem course_of_outcome {o : Outcome α} (h : outcome setting options p = .ok o) :
    ∃ report, Course setting options p report ∧ report.result.outcome = o := by
  rw [outcome] at h
  cases hs : solve setting options p with
  | error fault => simp [hs, Except.map] at h
  | ok report =>
    rw [hs] at h
    cases h
    exact ⟨report, solve_eq_ok_iff.1 hs, rfl⟩

/-- A solution is read off the last tableau of the second phase, where no column improves. -/
theorem optimal_course {x : List α} {objective : α}
    (h : outcome setting options p = .ok (.optimal x objective)) :
    ∃ one two, FirstRun setting options p one ∧ SecondRun setting options p one two ∧
      SecondState p two.tableau ∧ two.tableau.Halted none ∧
      x = tabulate p.numCosts two.tableau.basicValue ∧
      objective = two.tableau.objective + p.offset := by
  obtain ⟨report, hcourse, ho⟩ := course_of_outcome h
  cases hcourse with
  | first hone hstop => cases ho
  | infeasible hone hstop hclear => cases ho
  | second hone hstop hclear htwo hstop' => cases ho
  | @optimal one two hone hstop hclear htwo hstop' =>
    obtain ⟨hstate, hhalt⟩ := htwo.state hone hstop hclear
    cases ho
    exact ⟨one, two, hone, htwo, hstate, hstop' ▸ hhalt, rfl, rfl⟩

/-- A program is found infeasible only after the first phase, at a tableau that is not cleared. -/
theorem infeasible_course {phase : Nat}
    (h : outcome setting options p = .ok (.failed .infeasible phase)) :
    phase = 1 ∧ ∃ one, FirstRun setting options p one ∧ one.tableau.Halted none ∧
      ¬Cleared p one.tableau := by
  obtain ⟨report, hcourse, ho⟩ := course_of_outcome h
  cases hcourse with
  | @first one reason hone hstop =>
    have hhalt := hone.reaches.2
    cases ho
    rw [hstop] at hhalt
    exact hhalt.elim
  | @infeasible one hone hstop hclear =>
    cases ho
    exact ⟨rfl, one, hone, hstop ▸ hone.reaches.2, hclear⟩
  | @second one two reason hone hstop hclear htwo hstop' =>
    have hhalt := (htwo.state hone hstop hclear).2
    cases ho
    rw [hstop'] at hhalt
    exact hhalt.elim
  | optimal hone hstop hclear htwo hstop' => cases ho

theorem unbounded_course {phase : Nat}
    (h : outcome setting options p = .ok (.failed .unbounded phase)) :
    (phase = 1 ∧ ∃ t, Reaches (phaseOne p) t ∧ t.Halted (some .unbounded)) ∨
      phase = 2 ∧ ∃ t, SecondState p t ∧ t.Halted (some .unbounded) := by
  obtain ⟨report, hcourse, ho⟩ := course_of_outcome h
  cases hcourse with
  | @first one reason hone hstop =>
    have hreach := hone.reaches
    cases ho
    exact .inl ⟨rfl, one.tableau, hreach.1, hstop ▸ hreach.2⟩
  | infeasible hone hstop hclear => cases ho
  | @second one two reason hone hstop hclear htwo hstop' =>
    obtain ⟨hstate, hhalt⟩ := htwo.state hone hstop hclear
    cases ho
    exact .inr ⟨rfl, two.tableau, hstate, hstop' ▸ hhalt⟩
  | optimal hone hstop hclear htwo hstop' => cases ho

end Solver

end TwoPhase
