import TwoPhase.Decimal.Shortest

/-!
The written forms of a double: the shortest text that reads back, a fixed number of decimals,
and a fixed number of significant digits. Each starts from exact digits; only the layout differs.
-/
namespace TwoPhase

namespace Decimal

def zeros (n : Nat) : String := String.ofList (List.replicate n '0')

def insertPoint (digits : String) (places : Nat) : String :=
  let s := zeros (places + 1 - digits.length) ++ digits
  let cs := s.toList
  let whole := String.ofList (cs.take (cs.length - places))
  if places = 0 then whole else whole ++ "." ++ String.ofList (cs.drop (cs.length - places))

def positional (d : Decimal) : String :=
  if 0 ≤ d.exponent then toString d.digits ++ zeros d.exponent.toNat
  else insertPoint (toString d.digits) (-d.exponent).toNat

def exponentText (k : Int) : String :=
  let s := toString k.natAbs
  (if k < 0 then "e-" else "e+") ++ zeros (2 - s.length) ++ s

def scientific (d : Decimal) : String :=
  let s := toString d.digits
  insertPoint s (s.length - 1) ++ exponentText d.magnitude

def signed (negative : Bool) (s : String) : String := if negative then "-" ++ s else s

/-- The shortest text: positional from `1e-4` up to `1e16`, with at least one decimal. -/
def shortestText (x : Float) : String :=
  match Binary64.ofFloat x with
  | .nan => "nan"
  | .infinite negative => signed negative "inf"
  | .finite negative m e =>
    let d := shortest m e
    let k := d.magnitude
    signed negative <|
      if -4 ≤ k ∧ k < 16 then
        if 0 ≤ d.exponent then d.positional ++ ".0" else d.positional
      else d.scientific

def fixedText (places : Nat) (x : Float) : String :=
  match Binary64.ofFloat x with
  | .nan => "nan"
  | .infinite negative => signed negative "inf"
  | .finite negative m e =>
    let (num, den) := Binary64.fraction m e
    signed negative (insertPoint (toString (onGrid num den (-places))) places)

/-- The exact value rounded to significant digits, trailing zeros left out; positional where
the leading digit stands between `1e-4` and the last significant digit. -/
def generalText (count : Nat) (x : Float) : String :=
  match Binary64.ofFloat x with
  | .nan => "nan"
  | .infinite negative => signed negative "inf"
  | .finite negative m e =>
    let d := (significant m e count).trim
    let k := d.magnitude
    signed negative (if -4 ≤ k ∧ k < count then d.positional else d.scientific)

end Decimal

end TwoPhase
