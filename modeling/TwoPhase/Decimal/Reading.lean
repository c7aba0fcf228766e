import TwoPhase.Binary64
import TwoPhase.Power
import TwoPhase.Text.Digit

/-!
Numbers read from text. Blanks around a number are skipped, the digits of all scripts count, and
an underscore may stand between two digits. A decimal is rounded once to the nearest double.
-/
namespace TwoPhase

namespace Decimal

def plainDigit (c : Char) : Char :=
  match Text.digit? c with
  | some d => Char.ofNat (48 + d)
  | none => c

/-- The text without its underscores, if each stands between two digits. -/
def joinDigits : Bool → List Char → Option (List Char)
  | _, [] => some []
  | afterDigit, '_' :: cs =>
    match cs with
    | [] => none
    | c :: _ => if afterDigit && c.isDigit then joinDigits false cs else none
  | _, c :: cs => (joinDigits c.isDigit cs).map (c :: ·)

def numberChars? (s : String) : Option (List Char) :=
  joinDigits false ((Text.strip Text.isNumberBlank s.toList).map plainDigit)

def natOfDigits (cs : List Char) : Nat := cs.foldl (fun n c => 10 * n + (c.toNat - 48)) 0

def splitSign : List Char → Bool × List Char
  | '-' :: cs => (true, cs)
  | '+' :: cs => (false, cs)
  | cs => (false, cs)

def toFloat (negative : Bool) (digits : Nat) (exponent : Int) : Float :=
  let magnitude : Int := exponent + (toString digits).length
  if digits = 0 ∨ magnitude < -400 then if negative then -0 else 0
  else if 400 < magnitude then Binary64.infinity negative
  else
    let rounded :=
      if 0 ≤ exponent then Binary64.ofFraction? negative (digits * tenTo exponent.toNat) 1
      else Binary64.ofFraction? negative digits (tenTo (-exponent).toNat)
    rounded.getD (Binary64.infinity negative)

def exponentOf? : List Char → Option Int
  | [] => some 0
  | c :: cs =>
    if c = 'e' ∨ c = 'E' then
      let (negative, ds) := splitSign cs
      if ds.isEmpty || !ds.all Char.isDigit then none
      else some (if negative then -(natOfDigits ds : Int) else natOfDigits ds)
    else none

def unsigned? (negative : Bool) (cs : List Char) : Option Float :=
  let whole := cs.takeWhile Char.isDigit
  let rest := cs.dropWhile Char.isDigit
  let (places, rest) :=
    match rest with
    | '.' :: after => (after.takeWhile Char.isDigit, after.dropWhile Char.isDigit)
    | _ => ([], rest)
  if whole.isEmpty && places.isEmpty then none
  else
    (exponentOf? rest).map fun e =>
      toFloat negative (natOfDigits (whole ++ places)) (e - places.length)

def ofChars? (cs : List Char) : Option Float :=
  let (negative, body) := splitSign cs
  let word := String.ofList (body.map Char.toLower)
  if word = "inf" ∨ word = "infinity" then some (Binary64.infinity negative)
  else if word = "nan" then some (0 / 0)
  else unsigned? negative body

def readFloat? (s : String) : Option Float := do ofChars? (← numberChars? s)

/-- More digits than this are refused where an integer is read. -/
def maxDigits : Nat := 4300

def readInt? (s : String) : Option Int := do
  let cs ← numberChars? s
  let (negative, ds) := splitSign cs
  if ds.isEmpty || !ds.all Char.isDigit || maxDigits < ds.length then none
  else
    let n : Int := natOfDigits ds
    return if negative then -n else n

end Decimal

end TwoPhase
