import TwoPhase.Power

/-!
IEEE binary64 numbers as exact values. Rounding to the nearest double is done on naturals, a
half going to the even neighbour; a quotient beyond the largest double has no rounding.
-/
namespace TwoPhase

def roundDiv (num den : Nat) : Nat :=
  let q := num / den
  let r := 2 * (num % den)
  if r < den then q else if den < r then q + 1 else q + q % 2

/-- What the bits of a double say. A finite one is `± m · 2 ^ e`. -/
inductive Binary64 where
  | nan
  | infinite (negative : Bool)
  | finite (negative : Bool) (m : Nat) (e : Int)
  deriving DecidableEq, Repr

namespace Binary64

def ofFloat (x : Float) : Binary64 :=
  let bits := x.toBits.toNat
  let negative := decide (twoTo 63 ≤ bits)
  let exponent : Nat := bits / twoTo 52 % twoTo 11
  let fraction := bits % twoTo 52
  if exponent = 2047 then if fraction = 0 then .infinite negative else .nan
  else if exponent = 0 then .finite negative fraction (-1074)
  else .finite negative (twoTo 52 + fraction) ((exponent : Int) - 1075)

def fraction (m : Nat) (e : Int) : Nat × Nat :=
  if 0 ≤ e then (m * twoTo e.toNat, 1) else (m, twoTo (-e).toNat)

/-- The bits of the double nearest to a positive fraction, with no regard to overflow. The
significand is shifted to 53 bits, or to the least exponent; one that rounds up to 54 bits
carries into the exponent field. -/
def nearestBits (num den : Nat) : Nat :=
  if num = 0 then 0
  else
    let rough : Int := max (Int.ofNat num.log2 - Int.ofNat den.log2 - 52) (-1074)
    let quotient (e : Int) : Nat × Nat :=
      if 0 ≤ e then (num, den * twoTo e.toNat) else (num * twoTo (-e).toNat, den)
    let (a, b) := quotient rough
    let e := if a / b < twoTo 52 ∧ -1074 < rough then rough - 1 else rough
    let (a, b) := quotient e
    (e + 1074).toNat * twoTo 52 + roundDiv a b

def ofFraction? (negative : Bool) (num den : Nat) : Option Float :=
  let bits := nearestBits num den
  if bits < 2047 * twoTo 52 then
    some (Float.ofBits (UInt64.ofNat (bits + if negative then twoTo 63 else 0)))
  else none

def ofInt? (i : Int) : Option Float := ofFraction? (decide (i < 0)) i.natAbs 1

def ofRat? (q : Rat) : Option Float := ofFraction? (decide (q < 0)) q.num.natAbs q.den

def infinity (negative : Bool) : Float := if negative then -(1 / 0) else 1 / 0

def toRat? : Binary64 → Option Rat
  | .finite negative m e =>
    let (num, den) := fraction m e
    let q := mkRat num den
    some (if negative then -q else q)
  | _ => none

end Binary64

end TwoPhase
