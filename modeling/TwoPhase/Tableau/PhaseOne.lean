import TwoPhase.Problem
import TwoPhase.Tableau

/-!
The tableau that a solve starts from. Slack and artificial variables are numbered after the
decision variables, in the order of the constraint rows, so the artificial variables of the
equality rows carry the largest numbers.
-/
namespace TwoPhase

universe u

def varRange (first count : Nat) : List Int :=
  (List.range count).map fun k => ((first + k : Nat) : Int)

@[simp] theorem length_varRange (first count : Nat) :
    (varRange first count).length = count := by
  simp [varRange]

namespace Block

variable {α : Type u} [Zero α] {n : Nat}

/-- A block as the rows of a tableau: the right-hand side stands in column `n`. -/
def entry (b : Block α n) (i j : Nat) : α :=
  if j = n then b.rhs[i]?.getD 0 else b.matrix.cell i j

end Block

namespace Tableau

variable {α : Type u} [Cell α]

def helperEntry (p : LinearProgram α) (j : Nat) : α :=
  (List.range p.equalityRows).foldl (fun sum k => sum + p.equal.entry k j) 0

/-- The artificial problem: constraint rows, the helper row and the negated costs. -/
def phaseOne (p : LinearProgram α) : Tableau α where
  cells :=
    Grid.ofFn (p.constraintRows + 2) (p.numCosts + 1) fun i j =>
      if i < p.inequalityRows then p.upper.entry i j
      else if i < p.constraintRows then p.equal.entry (i - p.inequalityRows) j
      else if i = p.constraintRows then helperEntry p j
      else if j = p.numCosts then 0
      else -(p.cost[j]?.getD 0)
  basis := varRange (p.numCosts + 1) p.constraintRows
  nonbasis := varRange 1 p.numCosts
  width_cells := by simp

end Tableau

end TwoPhase
