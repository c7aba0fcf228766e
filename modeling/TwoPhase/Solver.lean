import TwoPhase.Solver.Options
import TwoPhase.Solver.Outcome
import TwoPhase.Tableau.PhaseOne
import TwoPhase.Tableau.Selection
import TwoPhase.Tableau.Table

/-!
The two-phase method. Phase one minimises the sum of the artificial variables, phase two drops
their columns and minimises the costs. A phase ends when no column improves, when the entering
column is unbounded, when the pivots are used up, or when a grid has been seen before; a grid is
remembered by its key alone, which leaves out the two lists of variables.

The loop is a recursion on the pivots that are left, so every run ends.
-/
namespace TwoPhase

variable {α κ : Type}

structure Setting (α κ : Type) where
  key : Grid α → κ
  renderer : Renderer α

/-- The end of a phase: its last tableau, its pivots, and why it stopped early, if it did. -/
structure PhaseRun (α : Type) where
  tableau : Tableau α
  pivots : Nat
  stop : Option FailureReason
  steps : List (Step α)
  tables : List String

def PhaseRun.halt (t : Tableau α) (pivots : Nat) (stop : Option FailureReason)
    (tables : List String) : PhaseRun α :=
  { tableau := t, pivots, stop, steps := [], tables }

namespace Solver

variable [Cell α] [DecidableEq κ] (setting : Setting α κ)

def shown (verbose : Bool) (phase iteration : Nat) (pivot : Option (Nat × Nat))
    (t : Tableau α) : Except TableauFault (List String) :=
  if verbose then do
    let text ← t.table setting.renderer phase iteration (pivot.map fun (r, c) => (↑r, ↑c))
    return [text]
  else return []

def label (vars : List Int) (i : Nat) : Except TableauFault Int :=
  vars[i]?.elim (.error .outOfRange) .ok

def step (phase iteration row col : Nat) (t : Tableau α) :
    Except TableauFault (Tableau α × Step α) := do
  let entering ← label t.nonbasis col
  let leaving ← label t.basis row
  match t.pivot row col with
  | (_, some fault) => .error fault
  | (t', none) =>
    let objective ← t'.cells.read t'.constraintRows t'.rhsCol
    return (t',
      { phase, iteration, row, col, entering, leaving, objective
        basis := t'.basis
        nonbasis := t'.nonbasis })

/-- Runs a phase that may make `left` more pivots after `done`, having seen the given keys. -/
def runPhase (verbose : Bool) (phase : Nat) (left done : Nat) (seen : List κ) (t : Tableau α) :
    Except TableauFault (PhaseRun α) := do
  match ← t.selectPivot t.constraintRows with
  | none =>
    let tables ← shown setting verbose phase done none t
    return .halt t done none tables
  | some ⟨none, _⟩ => return .halt t done (some .unbounded) []
  | some ⟨some row, col⟩ =>
    match left with
    | 0 => return .halt t done (some .iterationsExceeded) []
    | left + 1 =>
      let key := setting.key t.cells
      if key ∈ seen then
        return .halt t done (some .cycleDetected) []
      else
        let tables ← shown setting verbose phase (done + 1) (some (row, col)) t
        let (t', s) ← step phase (done + 1) row col t
        let rest ← runPhase verbose phase left (done + 1) (key :: seen) t'
        return { rest with steps := s :: rest.steps, tables := tables ++ rest.tables }

end Solver

/-- Solves a program. The result is a value whatever the arithmetic does; a fault would mean
that a tableau was addressed outside its bounds. -/
def solve [Cell α] [DecidableEq κ] (setting : Setting α κ) (options : Options)
    (p : LinearProgram α) : Except TableauFault (Report α) := do
  let one ← Solver.runPhase setting options.verbose 1 options.maxIterations 0 []
    (Tableau.phaseOne p)
  let failed (reason : FailureReason) : Report α :=
    { result :=
        { outcome := .failed reason 1, iterations := (one.pivots, 0), steps := one.steps }
      tables := one.tables
      compactShape := none }
  match one.stop with
  | some reason => return failed reason
  | none =>
    let threshold : Int := (p.numCosts + p.inequalityRows : Nat)
    let helper ← one.tableau.cells.read one.tableau.constraintRows one.tableau.rhsCol
    if !Cell.isZero helper || one.tableau.basis.any (threshold < ·) then
      return failed .infeasible
    else
      let start ← one.tableau.dropColumnsAbove threshold
      let two ← Solver.runPhase setting options.verbose 2 options.maxIterations 0 [] start
      let report (outcome : Outcome α) : Report α :=
        { result :=
            { outcome
              iterations := (one.pivots, two.pivots)
              steps := one.steps ++ two.steps }
          tables := one.tables ++ two.tables
          compactShape := some (start.cells.height, start.cells.width) }
      match two.stop with
      | some reason => return report (.failed reason 2)
      | none =>
        let x ← two.tableau.solution p.numCosts
        let corner ← two.tableau.cells.read (-1) (-1)
        return report (.optimal x (corner + p.offset))

end TwoPhase
