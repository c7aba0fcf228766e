import TwoPhase.Tableau

/-!
Pivot selection. The entering column has the smallest positive reduced cost, the leaving row the
smallest nonnegative ratio of right-hand side to entry; the first of equals wins. Both are the
one scan `firstLeast` over a list of candidates, where `none` is a place that does not take part.
-/
namespace TwoPhase

/-- A pivot cell; without a row, the entering column is unbounded. -/
structure Pivot where
  row : Option Nat
  col : Nat
  deriving DecidableEq, Repr

def Pivot.isBounded (p : Pivot) : Bool := p.row.isSome

variable {α : Type} [Cell α]

/-- Whether a candidate beats the best one so far; the first has to be below the top. -/
def improves (v : α) : Option (α × Nat) → Bool
  | none => Cell.isBelowTop v
  | some (best, _) => Cell.less v best

def scanLeast (k : Nat) (best : Option (α × Nat)) : List (Option α) → Option Nat
  | [] => best.map Prod.snd
  | none :: rest => scanLeast (k + 1) best rest
  | some v :: rest => scanLeast (k + 1) (if improves v best then some (v, k) else best) rest

def firstLeast (candidates : List (Option α)) : Option Nat := scanLeast 0 none candidates

def enteringCandidate (cost : α) : Option α :=
  if Cell.isNonpositive cost then none else some cost

def leavingCandidate (entry rhs : α) : Option α :=
  if Cell.isZero entry then none
  else if Cell.isNegative (rhs / entry) then none
  else some (rhs / entry)

namespace Grid

def enteringCol (g : Grid α) (objectiveRow limit : Int) : Except TableauFault (Option Nat) := do
  let costs ← (List.range limit.toNat).mapM fun j : Nat => g.read objectiveRow j
  return firstLeast (costs.map enteringCandidate)

/-- The first row of least ratio among the rows `0 … rows - 1`. The right-hand side is looked at
only where the entry is not zero. -/
def leavingRow (g : Grid α) (col rows rhsCol : Int) : Except TableauFault (Option Nat) := do
  let ratios ← (List.range rows.toNat).mapM fun i : Nat => do
    let entry ← g.read i col
    if Cell.isZero entry then return none
    return leavingCandidate entry (← g.read i rhsCol)
  return firstLeast ratios

end Grid

namespace Tableau

def selectPivot (t : Tableau α) (objectiveRow : Int) : Except TableauFault (Option Pivot) := do
  match ← t.cells.enteringCol objectiveRow t.rhsCol with
  | none => return none
  | some col => return some ⟨← t.cells.leavingRow col t.constraintRows t.rhsCol, col⟩

end Tableau

end TwoPhase
