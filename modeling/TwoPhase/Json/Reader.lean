import TwoPhase.Decimal.Reading
import TwoPhase.Value

/-!
JSON text as values. The grammar is the strict one, with `NaN`, `Infinity` and `-Infinity` as
further numbers. A number with a decimal point or an exponent is a double, another one an integer
of at most `Decimal.maxDigits` digits. Of entries with one key the last counts, at the place of
the first.

The functions recurse on fuel; `fuelFor` gives enough of it for any text of that length, as each
bracket takes at most two levels.
-/
namespace TwoPhase

namespace Json

def isSpace (c : Char) : Bool := c = ' ' || c = '\t' || c = '\n' || c = '\r'

def skipSpace (cs : List Char) : List Char := cs.dropWhile isSpace

def expect (word : List Char) (cs : List Char) : Option (List Char) :=
  if cs.take word.length = word then some (cs.drop word.length) else none

def hexDigit? (c : Char) : Option Nat :=
  if c.isDigit then some (c.toNat - 48)
  else if 'a' ≤ c ∧ c ≤ 'f' then some (c.toNat - 87)
  else if 'A' ≤ c ∧ c ≤ 'F' then some (c.toNat - 55)
  else none

def hexUnit : List Char → Option (Nat × List Char)
  | a :: b :: c :: d :: rest => do
    let n := ((← hexDigit? a) * 16 + (← hexDigit? b)) * 256 + (← hexDigit? c) * 16 + (← hexDigit? d)
    return (n, rest)
  | _ => none

def isHigh (u : Nat) : Bool := 0xD800 ≤ u && u < 0xDC00

def isLow (u : Nat) : Bool := 0xDC00 ≤ u && u < 0xE000

/-- The character of a unit, the replacement character for half a pair. -/
def unitChar (u : Nat) : Char := if isHigh u || isLow u then '\uFFFD' else Char.ofNat u

def lowUnit : List Char → Option (Nat × List Char)
  | '\\' :: 'u' :: rest => do
    let (u, rest) ← hexUnit rest
    if isLow u then return (u, rest) else none
  | _ => none

def letter? : Char → Option Char
  | '"' => some '"'
  | '\\' => some '\\'
  | '/' => some '/'
  | 'n' => some '\n'
  | 'r' => some '\r'
  | 't' => some '\t'
  | 'b' => some '\x08'
  | 'f' => some '\x0c'
  | _ => none

def textChar : List Char → Option (Char × List Char)
  | '\\' :: 'u' :: rest => do
    let (u, rest) ← hexUnit rest
    match isHigh u, lowUnit rest with
    | true, some (low, rest) =>
      return (Char.ofNat (0x10000 + (u - 0xD800) * 0x400 + (low - 0xDC00)), rest)
    | _, _ => return (unitChar u, rest)
  | '\\' :: c :: rest => (letter? c).map fun d => (d, rest)
  | c :: rest => if c.toNat < 32 ∨ c = '\\' then none else some (c, rest)
  | [] => none

def textBody : Nat → List Char → Option (List Char × List Char)
  | _, '"' :: rest => some ([], rest)
  | 0, _ => none
  | fuel + 1, cs => do
    let (c, rest) ← textChar cs
    let (body, rest) ← textBody fuel rest
    return (c :: body, rest)

def exponent? : List Char → Option (Int × List Char)
  | c :: cs =>
    if c = 'e' ∨ c = 'E' then
      let (negative, cs) := Decimal.splitSign cs
      let ds := cs.takeWhile Char.isDigit
      if ds.isEmpty then none
      else
        let n : Int := Decimal.natOfDigits ds
        some (if negative then -n else n, cs.dropWhile Char.isDigit)
    else none
  | [] => none

def places? : List Char → Option (List Char × List Char)
  | '.' :: cs =>
    let ds := cs.takeWhile Char.isDigit
    if ds.isEmpty then none else some (ds, cs.dropWhile Char.isDigit)
  | _ => none

/-- A number and what follows. A leading zero stands alone. -/
def number (negative : Bool) (cs : List Char) : Option (Value × List Char) :=
  let ds := cs.takeWhile Char.isDigit
  if ds.isEmpty then none
  else
    let (whole, rest) :=
      if ds.head? = some '0' then (['0'], cs.drop 1) else (ds, cs.dropWhile Char.isDigit)
    let (places, after) := (places? rest).getD ([], rest)
    match places, exponent? after with
    | [], none =>
      if Decimal.maxDigits < whole.length then none
      else
        let n : Int := Decimal.natOfDigits whole
        some (.int (if negative then -n else n), rest)
    | _, e =>
      let (k, after) := e.getD (0, after)
      some (.float (Decimal.toFloat negative (Decimal.natOfDigits (whole ++ places))
        (k - places.length)), after)

mutual

def value : Nat → List Char → Option (Value × List Char)
  | 0, _ => none
  | fuel + 1, cs =>
    match cs with
    | '"' :: rest => do
      let (body, rest) ← textBody rest.length rest
      return (.text (String.ofList body), rest)
    | '[' :: rest =>
      match skipSpace rest with
      | ']' :: rest => some (.list [], rest)
      | rest => do
        let (vs, rest) ← items fuel rest
        return (.list vs, rest)
    | '\x7b' :: rest =>
      match skipSpace rest with
      | '\x7d' :: rest => some (.dict [], rest)
      | rest => do
        let (es, rest) ← entries fuel rest
        return (.dict (Value.ofPairs es), rest)
    | 'n' :: _ => (expect ['n', 'u', 'l', 'l'] cs).map fun rest => (.null, rest)
    | 't' :: _ => (expect ['t', 'r', 'u', 'e'] cs).map fun rest => (.bool true, rest)
    | 'f' :: _ => (expect ['f', 'a', 'l', 's', 'e'] cs).map fun rest => (.bool false, rest)
    | 'N' :: _ => (expect ['N', 'a', 'N'] cs).map fun rest => (.float (0 / 0), rest)
    | 'I' :: _ =>
      (expect "Infinity".toList cs).map fun rest => (.float (Binary64.infinity false), rest)
    | '-' :: 'I' :: _ =>
      (expect "-Infinity".toList cs).map fun rest => (.float (Binary64.infinity true), rest)
    | '-' :: rest => number true rest
    | cs => number false cs

def items : Nat → List Char → Option (List Value × List Char)
  | 0, _ => none
  | fuel + 1, cs => do
    let (v, rest) ← value fuel cs
    match skipSpace rest with
    | ']' :: rest => return ([v], rest)
    | ',' :: rest =>
      let (vs, rest) ← items fuel (skipSpace rest)
      return (v :: vs, rest)
    | _ => none

def entries : Nat → List Char → Option (List (Value × Value) × List Char)
  | 0, _ => none
  | fuel + 1, cs =>
    match cs with
    | '"' :: rest => do
      let (key, rest) ← textBody rest.length rest
      match skipSpace rest with
      | ':' :: rest =>
        let (v, rest) ← value fuel (skipSpace rest)
        match skipSpace rest with
        | '\x7d' :: rest => return ([(.text (String.ofList key), v)], rest)
        | ',' :: rest =>
          let (es, rest) ← entries fuel (skipSpace rest)
          return ((.text (String.ofList key), v) :: es, rest)
        | _ => none
      | _ => none
    | _ => none

end

def fuelFor (cs : List Char) : Nat := 2 * cs.length + 4

def read? (s : String) : Option Value :=
  let cs := skipSpace s.toList
  match value (fuelFor cs) cs with
  | some (v, rest) => if (skipSpace rest).isEmpty then some v else none
  | none => none

end Json

end TwoPhase
