import TwoPhase.Agreement
import TwoPhase.Power
import TwoPhase.Problem
import TwoPhase.Tableau

/-!
An independent solve to check objectives against: exact rational arithmetic, an artificial
variable in every row, and Bland's rule, which never cycles. Only the optimal value is kept.

The runs recurse on fuel. A basis never comes back under Bland's rule, so the number of sets of
variables is enough of it.
-/
namespace TwoPhase

namespace Reference

def notFinite : ReferenceFault := .brokenOff "the problem holds numbers that are not finite"

def infeasible : ReferenceFault := .unsolved "the problem is infeasible"

def unbounded : ReferenceFault := .unsolved "the problem is unbounded"

def owner (vars : List Int) (i : Nat) : Int := vars[i]?.getD 0

def leastOwner (vars : List Int) (candidates : List Nat) : Option Nat :=
  candidates.foldl
    (fun best i =>
      match best with
      | none => some i
      | some k => if owner vars i < owner vars k then some i else some k)
    none

def entering (t : Tableau Rat) (row : Nat) (limit : Int) : Option Nat :=
  leastOwner t.nonbasis <|
    (List.range t.rhsCol).filter fun j => owner t.nonbasis j ≤ limit ∧ 0 < t.cells.cell row j

/-- The row of least ratio among the positive entries of a column; of equals, the one with the
least variable. -/
def leaving (t : Tableau Rat) (col : Nat) : Option Nat :=
  let rows := (List.range t.constraintRows).filter fun i => 0 < t.cells.cell i col
  let ratio (i : Nat) : Rat := t.cells.cell i t.rhsCol / t.cells.cell i col
  leastOwner t.basis (rows.filter fun i => rows.all fun k => ratio i ≤ ratio k)

def run (row : Nat) (limit : Int) : Nat → Tableau Rat → Option (Tableau Rat)
  | 0, t => some t
  | fuel + 1, t =>
    match entering t row limit with
    | none => some t
    | some col =>
      match leaving t col with
      | none => none
      | some i => run row limit fuel (t.pivot i col).1

/-- Exchanges the basic variables above a limit for others wherever their row allows it. -/
def expel (limit : Int) (t : Tableau Rat) : Tableau Rat :=
  (List.range t.constraintRows).foldl
    (fun t i =>
      if owner t.basis i ≤ limit then t
      else
        match (List.range t.rhsCol).find? fun j =>
            decide (owner t.nonbasis j ≤ limit) && decide (t.cells.cell i j ≠ 0) with
        | some j => (t.pivot i j).1
        | none => t)
    t

def exact (x : Float) : Rat := (Binary64.ofFloat x).toRat?.getD 0

/-- The start: every row has its own artificial variable and a right-hand side that is not
negative. The last two rows are the sum of all rows and the negated costs. -/
def start (p : LinearProgram Float) : Tableau Rat :=
  let n := p.cost.length
  let m₁ := p.upper.matrix.height
  let m := m₁ + p.equal.matrix.height
  let rhs (i : Nat) : Rat :=
    exact ((if i < m₁ then p.upper.rhs[i]? else p.equal.rhs[i - m₁]?).getD 0)
  let entry (i j : Nat) : Rat :=
    let plain : Rat :=
      if j < n then
        exact (if i < m₁ then p.upper.matrix.cell i j else p.equal.matrix.cell (i - m₁) j)
      else if j < n + m₁ then if j = n + i then 1 else 0
      else rhs i
    if rhs i < 0 then -plain else plain
  { cells := Grid.ofFn (m + 2) (n + m₁ + 1) fun i j =>
      if i < m then entry i j
      else if i = m then (List.range m).foldl (fun sum k => sum + entry k j) 0
      else if j < n then -exact (p.cost[j]?.getD 0)
      else 0
    basis := (List.range m).map fun i => ((n + m₁ + 1 + i : Nat) : Int)
    nonbasis := (List.range (n + m₁)).map fun j => ((j + 1 : Nat) : Int)
    width_cells := by simp }

def allFinite (p : LinearProgram Float) : Bool :=
  p.cost.all Float.isFinite &&
    (p.upper.matrix.toLists.all (·.all Float.isFinite) && p.upper.rhs.all Float.isFinite) &&
    (p.equal.matrix.toLists.all (·.all Float.isFinite) && p.equal.rhs.all Float.isFinite)

def optimum (p : LinearProgram Float) : Except ReferenceFault Rat :=
  if !allFinite p then .error notFinite
  else
    let t := start p
    let limit : Int := (p.cost.length + p.upper.matrix.height : Nat)
    let fuel := twoTo (t.basis.length + t.nonbasis.length)
    match run t.constraintRows limit fuel t with
    | none => .error infeasible
    | some t =>
      if t.cells.cell t.constraintRows t.rhsCol ≠ 0 then .error infeasible
      else
        match run (t.constraintRows + 1) limit fuel (expel limit t) with
        | none => .error unbounded
        | some t => .ok (t.cells.cell (t.constraintRows + 1) t.rhsCol)

def objective (p : LinearProgram Float) : Except ReferenceFault Float := do
  let value ← optimum p
  return (Binary64.ofRat? value).getD (Binary64.infinity (value < 0)) + p.offset

end Reference

end TwoPhase
