import TwoPhase.Grid
import TwoPhase.Matrix.Arithmetic

/-!
Row reduction in two passes. The first clears every pivot column outside its pivot row and moves
no row: a column takes the first row that is not yet a pivot row and has a cell that is not
zero, and a column without one is passed over. The second pass swaps the pivot rows into
echelon order and counts the swaps.

A cell of a cleared row is touched only if the factor of its row is not zero.
-/
namespace TwoPhase

namespace Reduction

variable {m : Type → Type} [Monad m] {α : Type} [Zero α] [Arithmetic m α]

def pivotRow? (m : Type → Type) [Arithmetic m α] (g : Grid α) (col : Nat)
    (candidates : List Nat) : Option Nat :=
  candidates.find? fun r => !Arithmetic.isZero m (Grid.cell g r col)

def clearedRow (g : Grid α) (row col target : Nat) : m (List α) := do
  let old := g.row target
  let factor ← Arithmetic.div (m := m) (g.cell target col) (g.cell row col)
  if Arithmetic.isZero m factor then return old
  else
    let products ← (g.row row).mapM (Arithmetic.mul (m := m) factor)
    (old.zip products).mapM fun (a, b) => Arithmetic.sub (m := m) a b

def clearColumn (g : Grid α) (row col : Nat) : m (Grid α) := do
  let rows ← (List.range g.height).mapM fun target =>
    if target = row then pure (g.row target) else clearedRow g row col target
  let rows := (rows.map List.toArray).toArray
  return Grid.ofFn g.height g.width fun i j => (rows[i]?.bind (·[j]?)).getD 0

/-- A reduced grid with the pivots in the order in which they were found. -/
structure Implicit (α : Type) where
  grid : Grid α
  pivots : List (Nat × Nat)

def reduceAlong (g : Grid α) (pivots : List (Nat × Nat)) : List Nat → m (Implicit α)
  | [] => return ⟨g, pivots⟩
  | col :: cols =>
    if pivots.length = g.height then return ⟨g, pivots⟩
    else
      let free := (List.range g.height).filter fun r => !(pivots.map Prod.fst).contains r
      match pivotRow? m g col free with
      | none => reduceAlong g pivots cols
      | some row => do
        let g ← clearColumn g row col
        reduceAlong g (pivots ++ [(row, col)]) cols

def implicit (g : Grid α) (limit : Nat) : m (Implicit α) := reduceAlong g [] (List.range limit)

def swapRows (g : Grid α) (r s : Nat) : Grid α :=
  Grid.ofFn g.height g.width fun i j => g.cell (if i = r then s else if i = s then r else i) j

/-- Moves the rows with a pivot in the given columns to `target`, `target + 1`, …; `swaps` swaps
were made before. -/
def echelonAlong (m : Type → Type) [Arithmetic m α] (g : Grid α) (target swaps : Nat) :
    List Nat → Grid α × Nat
  | [] => (g, swaps)
  | col :: cols =>
    if g.height ≤ target then (g, swaps)
    else
      match pivotRow? m g col ((List.range g.height).drop target) with
      | none => echelonAlong m g target swaps cols
      | some row =>
        if row = target then echelonAlong m g (target + 1) swaps cols
        else echelonAlong m (swapRows g target row) (target + 1) (swaps + 1) cols

def explicit (g : Grid α) (limit : Nat) : m (Grid α × Nat) := do
  let reduced ← implicit g limit
  return echelonAlong m reduced.grid 0 0 (List.range limit)

def det (g : Grid α) : m α := do
  let (echelon, swaps) ← explicit g g.width
  let sign : α := Arithmetic.unit m (swaps % 2 = 1)
  (List.range echelon.height).foldlM (fun d i => Arithmetic.mul (m := m) d (echelon.cell i i)) sign

end Reduction

end TwoPhase
