import TwoPhase.Power
import TwoPhase.Value.Array
import TwoPhase.Value.Literal

/-!
Arrays of one kind of cell. The kind of nested lists follows from their cells: truth values,
integers and doubles widen in this order, text takes the written form of the others, and a cell
that fits nowhere makes all cells loosely typed.
-/
namespace TwoPhase

inductive Cells where
  | bools (t : Tensor Bool)
  | ints (t : Tensor Int)
  | floats (t : Tensor Float)
  | texts (t : Tensor String)
  | values (t : Tensor Value)

inductive CellKind where
  | bool
  | int
  | float
  | value
  deriving DecidableEq, Repr

namespace Cells

def shape : Cells → List Nat
  | .bools t => t.shape
  | .ints t => t.shape
  | .floats t => t.shape
  | .texts t => t.shape
  | .values t => t.shape

def kindName : Cells → String
  | .bools _ => "bool"
  | .ints _ => "int64"
  | .floats _ => "float64"
  | .texts _ => "text"
  | .values _ => "object"

def fitsWord (i : Int) : Bool := decide (-twoTo 63 ≤ i) && decide (i < twoTo 64)

def isPlain : Value → Bool
  | .bool _ | .float _ | .text _ => true
  | .int i => fitsWord i
  | _ => false

def isText : Value → Bool
  | .text _ => true
  | _ => false

def isBool : Value → Bool
  | .bool _ => true
  | _ => false

def textOf : Value → String
  | .text s => Value.cellText s
  | v => v.literal

def truth (v : Value) : Bool := v.isTrue

def toInt : Value → Except ArrayFault Int
  | .text s => (Decimal.readInt? s).elim (.error .badText) .ok
  | v =>
    match v.number? with
    | some (.int i) => .ok i
    | some (.fraction q) => .ok (Int.tdiv q.num q.den)
    | some (.float x) =>
      match Binary64.ofFloat x with
      | .nan => .error .badText
      | .infinite _ => .error .overflow
      | b => b.toRat?.elim (.error .badText) fun q => .ok (Int.tdiv q.num q.den)
    | none => .error .notNumber

def toWord (v : Value) : Except ArrayFault Int := do
  let i ← toInt v
  if -twoTo 63 ≤ i ∧ i < twoTo 63 then return i else .error .overflow

/-- The integers of a list, if they are of one signedness. -/
def ints? (t : Tensor Value) : Option (Tensor Int) :=
  let number : Value → Option Int
    | .bool b => some (if b then 1 else 0)
    | .int i => some i
    | _ => none
  let plain := t.entries.all fun v => isBool v || (number v).any (· < (twoTo 63 : Int))
  let large := t.entries.all fun v => isBool v || (number v).any ((twoTo 63 : Int) ≤ ·)
  if plain || large then some (t.map fun v => (number v).getD 0) else none

def ofValue (v : Value) : Except ArrayFault Cells := do
  let t ← v.cells
  if t.entries.isEmpty then return .floats (t.map fun _ => 0)
  else if !t.entries.all isPlain then return .values t
  else if t.entries.any isText then return .texts (t.map textOf)
  else if t.entries.all isBool then return .bools (t.map truth)
  else
    match ints? t with
    | some words => return .ints words
    | none => return .floats (← t.mapM Value.cellFloat)

def table (v : Value) : Except ArrayFault (Tensor Value) :=
  let rows? : Option (List (List Value)) :=
    match v with
    | .list rows => rows.mapM fun
      | .list items => some items
      | _ => none
    | _ => none
  match rows? with
  | some (first :: rest) => Tensor.stack ((first :: rest).map Tensor.ofList)
  | _ => v.cells

def ofKind (kind : CellKind) (v : Value) : Except ArrayFault Cells := do
  match kind with
  | .float => return .floats (← v.floats)
  | .int => return .ints (← (← v.cells).mapM toWord)
  | .bool => return .bools ((← v.cells).map truth)
  | .value => return .values (← table v)

def reshape (c : Cells) (shape : List Nat) : Except ArrayFault Cells :=
  let done {α : Type} (f : Tensor α → Cells) (t : Tensor α) : Except ArrayFault Cells :=
    (t.reshape? shape).elim (.error .shape) fun t => .ok (f t)
  match c with
  | .bools t => done .bools t
  | .ints t => done .ints t
  | .floats t => done .floats t
  | .texts t => done .texts t
  | .values t => done .values t

def entries : Cells → List Value
  | .bools t => t.entries.toList.map .bool
  | .ints t => t.entries.toList.map .int
  | .floats t => t.entries.toList.map .float
  | .texts t => t.entries.toList.map .text
  | .values t => t.entries.toList

def toValue (c : Cells) : Value := Value.nest c.shape c.entries

end Cells

end TwoPhase
