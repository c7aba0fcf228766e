import TwoPhase.Decimal.Reading
import TwoPhase.Value
import TwoPhase.Yaml.Node

/-!
Values of YAML nodes. A plain scalar is what its spelling says: null, a truth value, an integer
in base 2, 8, 10, 16 or 60, a double that has a point, or else a text. A quoted scalar is text.

The reader covers a part of the language: a date is a text, and anchors, aliases, tags, block
scalars, merge keys and directives are refused.
-/
namespace TwoPhase

namespace Yaml

def isNullWord (s : String) : Bool := ["", "~", "null", "Null", "NULL"].contains s

def boolWord? (s : String) : Option Bool :=
  if ["yes", "Yes", "YES", "true", "True", "TRUE", "on", "On", "ON"].contains s then some true
  else if ["no", "No", "NO", "false", "False", "FALSE", "off", "Off", "OFF"].contains s then
    some false
  else none

def isDigitMark (c : Char) : Bool := c.isDigit || c = '_'

def startsDigits (p : Char → Bool) (cs : List Char) : Bool :=
  cs.head?.any p && cs.all isDigitMark

def isNonzero (c : Char) : Bool := c.isDigit && c ≠ '0'

def withoutMarks (cs : List Char) : List Char := cs.filter (· ≠ '_')

def colonParts (cs : List Char) : List (List Char) :=
  match cs with
  | [] => [[]]
  | ':' :: rest => [] :: colonParts rest
  | c :: rest =>
    match colonParts rest with
    | [] => [[c]]
    | part :: parts => (c :: part) :: parts

def isSixtieth (cs : List Char) : Bool :=
  match cs with
  | [a] => a.isDigit
  | [a, b] => a.isDigit && a ≤ '5' && b.isDigit
  | _ => false

def ofBase (base : Nat) (cs : List Char) : Option Nat :=
  if cs.isEmpty then none
  else (cs.mapM Json.hexDigit?).map (·.foldl (fun n d => base * n + d) 0)

def ofDecimal (cs : List Char) : Option Nat :=
  if Decimal.maxDigits < cs.length then none else ofBase 10 cs

/-- An unsigned integer, if the text is spelled like one; one without digits or with too many of
them has no value. -/
def integer? (cs : List Char) : Option (Option Nat) :=
  let ofAll (p : Char → Bool) (ds : List Char) (value : List Char → Option Nat) :=
    if !ds.isEmpty && ds.all (fun c => p c || c = '_') then some (value (withoutMarks ds)) else none
  match cs with
  | '0' :: 'b' :: ds => ofAll (fun c => c = '0' || c = '1') ds (ofBase 2)
  | '0' :: 'x' :: ds => ofAll (fun c => (Json.hexDigit? c).isSome) ds (ofBase 16)
  | '0' :: ds => ofAll (fun c => c.isDigit && c ≤ '7') ('0' :: ds) (ofBase 8)
  | _ =>
    match colonParts cs with
    | [] => none
    | whole :: parts =>
      if startsDigits isNonzero whole && parts.all isSixtieth then
        some <| (((withoutMarks whole) :: parts).mapM ofDecimal).map
          (·.foldl (fun n d => 60 * n + d) 0)
      else none

def isPointed (cs : List Char) : Bool :=
  let whole := cs.takeWhile isDigitMark
  match cs.dropWhile isDigitMark with
  | '.' :: rest =>
    let places := rest.takeWhile isDigitMark
    let exponent :=
      match rest.dropWhile isDigitMark with
      | [] => true
      | e :: sign :: ds =>
        (e = 'e' || e = 'E') && (sign = '-' || sign = '+') && !ds.isEmpty && ds.all Char.isDigit
      | _ => false
    exponent &&
      (startsDigits Char.isDigit whole || (whole.isEmpty && places.head?.any Char.isDigit))
  | _ => false

def sixties? (cs : List Char) : Option (List (List Char)) :=
  match (colonParts cs).reverse with
  | last :: middle =>
    let digits := last.takeWhile Char.isDigit
    let whole := middle.getLast?.getD []
    if isSixtieth digits && startsDigits Char.isDigit whole && middle.dropLast.all isSixtieth &&
        (last.dropWhile Char.isDigit).head? = some '.' &&
        ((last.dropWhile Char.isDigit).drop 1).all isDigitMark then
      some (colonParts (withoutMarks cs))
    else none
  | [] => none

def plainFloat (cs : List Char) : Float := (Decimal.unsigned? false cs).getD 0

def sixtiesValue (parts : List (List Char)) : Float :=
  (parts.reverse.foldl
    (fun (sum, base) part => (sum + plainFloat part * base, base * 60)) ((0, 1) : Float × Float)).1

def plainValue (s : String) : Except Fault Value :=
  let (negative, body) := Decimal.splitSign s.toList
  let hasSign := body.length ≠ s.toList.length
  let word := String.ofList body
  let signed (x : Float) : Value := .float (if negative then -1 * x else 1 * x)
  if isNullWord s then .ok .null
  else
    match boolWord? s with
    | some b => .ok (.bool b)
    | none =>
      match integer? body with
      | some (some n) => .ok (.int (if negative then -n else n))
      | some none => .error .badNumber
      | none =>
        if isPointed body && !(hasSign && body.head? = some '.') then
          .ok (signed (plainFloat (withoutMarks body)))
        else if [".inf", ".Inf", ".INF"].contains word then .ok (signed (Binary64.infinity false))
        else if [".nan", ".NaN", ".NAN"].contains s then .ok (.float (0 / 0))
        else
          match sixties? body with
          | some parts => .ok (signed (sixtiesValue parts))
          | none => if s = "=" ∨ s = "<<" then .error .malformed else .ok (.text s)

mutual

def Node.value : Node → Except Fault Value
  | .scalar s plain => if plain then plainValue s else .ok (.text s)
  | .sequence items => do return .list (← itemValues items)
  | .mapping entries => do return .dict (Value.ofPairs (← entryValues entries))

def itemValues : List Node → Except Fault (List Value)
  | [] => .ok []
  | n :: ns => do
    let first ← n.value
    let rest ← itemValues ns
    return first :: rest

def entryValues : List (Node × Node) → Except Fault (List (Value × Value))
  | [] => .ok []
  | (k, n) :: entries => do
    let key ← k.value
    if !key.isScalar then .error .malformed
    else
      let value ← n.value
      let rest ← entryValues entries
      return (key, value) :: rest

end

/-- The value of a text with at most one document; without one it is null. -/
def read (cs : List Char) : Except Fault Value := do
  match ← Node.ofTokens (← tokens cs) with
  | some root => root.value
  | none => return .null

end Yaml

end TwoPhase
