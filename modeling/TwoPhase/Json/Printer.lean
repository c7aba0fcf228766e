import TwoPhase.Decimal.Notation
import TwoPhase.Decimal.Reading
import TwoPhase.Text.Quoted
import TwoPhase.Value

/-!
Values as JSON text on one line. Text is pure ASCII: other characters are escaped by their UTF-16
units. Sets and fractions have no JSON form, and neither has a key that is no scalar of JSON. An
integer is written if it has at most `Decimal.maxDigits` digits, and values may nest as deep as the
writer has levels: a parameter, since it depends on the calls that are under way.
-/
namespace TwoPhase

namespace Json

inductive PrintFault where
  | set
  | fraction
  | key
  | digits
  | nesting
  deriving DecidableEq, Repr

def PrintFault.message : PrintFault → Option String
  | .set => some "object of type <class 'set'> is not JSON serializable"
  | .fraction => some "object of type <class 'fractions.Fraction'> is not JSON serializable"
  | .key | .digits | .nesting => none

def units (n : Nat) : List Nat :=
  if n < 0x10000 then [n] else [0xD800 + (n - 0x10000) / 0x400, 0xDC00 + (n - 0x10000) % 0x400]

def escapedChar (c : Char) : List Char :=
  match c with
  | '"' => ['\\', '"']
  | '\\' => ['\\', '\\']
  | '\n' => ['\\', 'n']
  | '\r' => ['\\', 'r']
  | '\t' => ['\\', 't']
  | '\x08' => ['\\', 'b']
  | '\x0c' => ['\\', 'f']
  | c =>
    if 32 ≤ c.toNat ∧ c.toNat < 127 then [c]
    else (units c.toNat).flatMap fun u => '\\' :: 'u' :: (Text.hex 4 u).toList

def quotedText (s : String) : String :=
  String.ofList ('"' :: s.toList.flatMap escapedChar ++ ['"'])

def floatText (x : Float) : String :=
  match Binary64.ofFloat x with
  | .nan => "NaN"
  | .infinite negative => if negative then "-Infinity" else "Infinity"
  | .finite .. => Decimal.shortestText x

def boolText (b : Bool) : String := if b then "true" else "false"

def intText (i : Int) : Except PrintFault String :=
  if (toString i.natAbs).length ≤ Decimal.maxDigits then .ok (toString i) else .error .digits

/-- A key as text. An array cell may be a key if it is text or a double. -/
def keyText : Value → Except PrintFault String
  | .text s => .ok s
  | .null => .ok "null"
  | .bool b => .ok (boolText b)
  | .int i => intText i
  | .float x => .ok (floatText x)
  | .array (.text s) => .ok s
  | .array (.float x) => .ok (floatText x)
  | _ => .error .key

/-- The levels that are left inside a collection. -/
def enter : Nat → Except PrintFault Nat
  | 0 => .error .nesting
  | levels + 1 => .ok levels

mutual

def print (levels : Nat) : Value → Except PrintFault String
  | .null => .ok "null"
  | .bool b => .ok (boolText b)
  | .int i => intText i
  | .float x => .ok (floatText x)
  | .fraction _ => .error .fraction
  | .text s => .ok (quotedText s)
  | .list items => do
    let left ← enter levels
    return "[" ++ ", ".intercalate (← printItems left items) ++ "]"
  | .dict entries => do
    let left ← enter levels
    return "\x7b" ++ ", ".intercalate (← printEntries left entries) ++ "\x7d"
  | .set _ => .error .set
  | .array cells => do
    let left ← enter levels
    print left cells

def printItems (levels : Nat) : List Value → Except PrintFault (List String)
  | [] => .ok []
  | v :: vs => do
    let first ← print levels v
    let rest ← printItems levels vs
    return first :: rest

def printEntries (levels : Nat) : List (Value × Value) → Except PrintFault (List String)
  | [] => .ok []
  | (k, v) :: entries => do
    let key ← keyText k
    let value ← print levels v
    let rest ← printEntries levels entries
    return (quotedText key ++ ": " ++ value) :: rest

end

end Json

end TwoPhase
