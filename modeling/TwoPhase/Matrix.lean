import TwoPhase.Cell
import TwoPhase.Matrix.Cells
import TwoPhase.Matrix.Cofactor
import TwoPhase.Matrix.Reduction

/-!
Row reduction and determinants of matrices given as nested lists or as arrays. Truth values and
integers are reduced as doubles; loosely typed cells keep their own arithmetic, and the
expansion into cofactors keeps integers too.
-/
namespace TwoPhase

inductive MatrixSource where
  | nested (v : Value)
  | cells (c : Cells)

inductive MatrixFault where
  | inPlaceShape
  | inPlaceKind (kind : String)
  | notTwoDimensional
  | notSquare
  | badColumns
  | notRows
  | array (fault : ArrayFault)
  | arithmetic (fault : ArithmeticFault)
  deriving DecidableEq, Repr

def MatrixFault.message : MatrixFault → Option String
  | .inPlaceShape => some "in-place reduction requires a 2-D numpy array"
  | .inPlaceKind kind => some ("in-place reduction cannot divide in dtype " ++ kind)
  | .notTwoDimensional => some "matrix must be 2-D"
  | .notSquare => some "det(A) requires A to be a square matrix"
  | .badColumns => none
  | .notRows => none
  | .array _ => none
  | .arithmetic _ => none

namespace MatrixSource

def toCells : MatrixSource → Except MatrixFault Cells
  | .nested v => (Cells.ofValue v).mapError .array
  | .cells c => .ok c

inductive Work where
  | floats (g : Grid Float)
  | texts (g : Grid String)
  | values (g : Grid Value)

def workOfCells (c : Cells) : Except MatrixFault Work :=
  let grid {α : Type} [Zero α] (f : Grid α → Work) (t : Tensor α) : Except MatrixFault Work :=
    t.toGrid?.elim (.error .notTwoDimensional) fun g => .ok (f g)
  match c with
  | .bools t => grid .floats (t.map fun b => if b then 1 else 0)
  | .ints t => grid .floats (t.map fun i => (Binary64.ofInt? i).getD (1 / 0))
  | .floats t => grid .floats t
  | .texts t => grid .texts t
  | .values t => grid .values t

/-- The grid to reduce. In place, only an array of doubles or of loosely typed cells will do. -/
def workspace (source : MatrixSource) (inPlace : Bool) : Except MatrixFault Work := do
  if inPlace then
    match source with
    | .nested _ => .error .inPlaceShape
    | .cells c =>
      if c.shape.length ≠ 2 then .error .inPlaceShape
      else
        match c with
        | .floats _ | .values _ => workOfCells c
        | _ => .error (.inPlaceKind c.kindName)
  else workOfCells (← source.toCells)

/-- How many columns may hold pivots: all of them, or as many as are asked for. What is no
integer will do only where it exceeds the width. -/
def columnLimit (cols : Option Value) (width : Nat) : Except MatrixFault Nat :=
  match cols with
  | none | some .null => .ok width
  | some v =>
    match v.number? with
    | some (.int i) => .ok (min i.toNat width)
    | some n => if (Number.int width).lt n then .ok width else .error .badColumns
    | none => .error .badColumns

def Work.run {β : Type} (work : Work)
    (f : {α : Type} → [Zero α] → [Arithmetic (Except ArithmeticFault) α] → (α → Value) →
      Grid α → Except MatrixFault β) : Except MatrixFault β :=
  match work with
  | .floats g => f .float g
  | .texts g => f .text g
  | .values g => f id g

def checked {β : Type} (result : Except ArithmeticFault β) : Except MatrixFault β :=
  result.mapError .arithmetic

def implicitReduce (source : MatrixSource) (cols : Option Value) (inPlace : Bool) :
    Except MatrixFault (List (List Value)) := do
  (← source.workspace inPlace).run fun value g => do
    let reduced ← checked (Reduction.implicit g (← columnLimit cols g.width))
    return reduced.grid.toLists.map (·.map value)

def explicitReduce (source : MatrixSource) (cols : Option Value) (inPlace : Bool) :
    Except MatrixFault (List (List Value) × Nat) := do
  (← source.workspace inPlace).run fun value g => do
    let (echelon, swaps) ← checked (Reduction.explicit g (← columnLimit cols g.width))
    return (echelon.toLists.map (·.map value), swaps)

/-- The determinant from the echelon form. Without cells it is the integer one. -/
def det (source : MatrixSource) : Except MatrixFault Value := do
  let c ← source.toCells
  match c.shape with
  | [h, w] =>
    if h ≠ w then .error .notSquare
    else if h = 0 then return .int 1
    else (← workOfCells c).run fun value g => do return value (← checked (Reduction.det g))
  | _ => .error .notSquare

def items (v : Value) : Except MatrixFault (List Value) := v.items?.elim (.error .notRows) .ok

/-- The determinant by expansion into cofactors. The single cell of a matrix is its determinant,
whatever it is. -/
def cofactorDet (source : MatrixSource) : Except MatrixFault Value := do
  let whole :=
    match source with
    | .nested v => v
    | .cells c => c.toValue
  let rows ← (← items whole).mapM items
  if rows.any (·.length ≠ rows.length) then .error .notSquare
  else checked (Cofactor.expand rows.length rows)

end MatrixSource

end TwoPhase
