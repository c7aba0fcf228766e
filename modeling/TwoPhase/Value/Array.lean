import TwoPhase.Decimal.Reading
import TwoPhase.Tensor
import TwoPhase.Value

/-!
Arrays from nested lists. The nesting gives the dimensions and has to be the same everywhere;
only then are the cells looked at, in row-major order.
-/
namespace TwoPhase

inductive ArrayFault where
  | ragged
  | badText
  | notNumber
  | overflow
  | shape
  deriving DecidableEq, Repr

namespace Tensor

variable {α : Type}

def stack (parts : List (Tensor α)) : Except ArrayFault (Tensor α) :=
  match parts with
  | [] => .ok (ofList [])
  | first :: _ =>
    if parts.all (·.shape = first.shape) then
      let entries := parts.flatMap (·.entries.toList)
      ((ofList entries).reshape? (parts.length :: first.shape)).elim (.error .ragged) .ok
    else .error .ragged

end Tensor

namespace Value

mutual

/-- The array of a value; what is neither a list nor an array is a cell. -/
def cells : Value → Except ArrayFault (Tensor Value)
  | .list items => do Tensor.stack (← listCells items)
  | .array v => cells v
  | v => .ok (Tensor.scalar v)

def listCells : List Value → Except ArrayFault (List (Tensor Value))
  | [] => .ok []
  | v :: vs => do
    let first ← cells v
    let rest ← listCells vs
    return first :: rest

end

def numberFault : ArithmeticFault → ArrayFault
  | .overflow => .overflow
  | .zeroDivision => .notNumber
  | .notNumber => .notNumber

def toFloat : Value → Except ArrayFault Float
  | .text s => (Decimal.readFloat? s).elim (.error .badText) .ok
  | .array v => toFloat v
  | v =>
    match v.number? with
    | some n => n.toFloat.mapError numberFault
    | none => .error .notNumber

/-- The text of a cell ends before its trailing zero characters. -/
def cellText (s : String) : String :=
  String.ofList (s.toList.reverse.dropWhile (· = '\x00')).reverse

/-- A cell as a double. A missing one is not a number. -/
def cellFloat : Value → Except ArrayFault Float
  | .null => .ok (0 / 0)
  | .text s => toFloat (.text (cellText s))
  | v => v.toFloat

def floats (v : Value) : Except ArrayFault (Tensor Float) := do
  (← v.cells).mapM cellFloat

def nest (shape : List Nat) (entries : List Value) : Value :=
  match shape with
  | [] => entries.head?.getD .null
  | n :: rest =>
    let size := rest.foldr (· * ·) 1
    .list ((List.range n).map fun i => nest rest ((entries.drop (i * size)).take size))

end Value

end TwoPhase
