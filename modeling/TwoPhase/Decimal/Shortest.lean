import TwoPhase.Binary64
import TwoPhase.Power

/-!
Decimal digits of positive binary fractions. `shortest` looks for the fewest digits that read
back to the same double: on the grid of 1, 2, …, 17 digits it tests the two neighbours of the
value, and the first grid with a hit wins. All arithmetic is on naturals.
-/
namespace TwoPhase

structure Decimal where
  digits : Nat
  exponent : Int
  deriving DecidableEq, Repr

namespace Decimal

def scale (num den : Nat) (k : Int) : Nat × Nat :=
  if 0 ≤ k then (num, den * tenTo k.toNat) else (num * tenTo (-k).toNat, den)

def reaches (num den : Nat) (k : Int) : Bool :=
  let (a, b) := scale num den k
  decide (b ≤ a)

/-- The exponent of the leading digit of a positive fraction. The estimate from the binary
length is at most two below it. -/
def leadingExponent (num den : Nat) : Int :=
  let bits : Int := Int.ofNat num.log2 - Int.ofNat den.log2
  let k := Int.fdiv ((bits - 1) * 30103) 100000 - 1
  if reaches num den (k + 3) then k + 3
  else if reaches num den (k + 2) then k + 2
  else if reaches num den (k + 1) then k + 1
  else k

def onGrid (num den : Nat) (k : Int) : Nat :=
  let (a, b) := scale num den k
  roundDiv a b

/-- Whether `d · 10 ^ k` reads back as `m · 2 ^ e`: it lies between the middles to the two
neighbouring doubles, which themselves go to an even significand. -/
def readsBack (m : Nat) (e : Int) (d : Nat) (k : Int) : Bool :=
  let below := if m = twoTo 52 ∧ -1074 < e then 4 * m - 1 else 4 * m - 2
  let above := 4 * m + 2
  let (a, b) := Binary64.fraction 1 (e - 2)
  let (c, f) := scale a b k
  -- compare `d` with `below · c / f` and `above · c / f`
  if m % 2 = 0 then decide (below * c ≤ d * f ∧ d * f ≤ above * c)
  else decide (below * c < d * f ∧ d * f < above * c)

def hit (m : Nat) (e : Int) (k : Int) : Option Nat :=
  let (num, den) := Binary64.fraction m e
  let (a, b) := scale num den k
  let near := roundDiv a b
  let far := if near * b ≤ a then near + 1 else near - 1
  if readsBack m e near k then some near
  else if readsBack m e far k then some far
  else none

def search (m : Nat) (e : Int) (k : Int) : Nat → Decimal
  | 0 => ⟨(hit m e k).getD 0, k⟩
  | fuel + 1 =>
    match hit m e k with
    | some d => ⟨d, k⟩
    | none => search m e (k - 1) fuel

def trim (d : Decimal) : Decimal := go d.digits d.exponent (d.digits.log2 + 1)
where
  go (digits : Nat) (exponent : Int) : Nat → Decimal
    | 0 => ⟨digits, exponent⟩
    | fuel + 1 =>
      if digits ≠ 0 ∧ digits % 10 = 0 then go (digits / 10) (exponent + 1) fuel
      else ⟨digits, exponent⟩

/-- The fewest digits that read back as `m · 2 ^ e`, and the nearest of those. -/
def shortest (m : Nat) (e : Int) : Decimal :=
  if m = 0 then ⟨0, 0⟩
  else
    let (num, den) := Binary64.fraction m e
    (search m e (leadingExponent num den) 17).trim

def significant (m : Nat) (e : Int) (count : Nat) : Decimal :=
  if m = 0 then ⟨0, 0⟩
  else
    let (num, den) := Binary64.fraction m e
    let k := leadingExponent num den - count + 1
    ⟨onGrid num den k, k⟩

def magnitude (d : Decimal) : Int :=
  if d.digits = 0 then 0 else d.exponent + (toString d.digits).length - 1

end Decimal

end TwoPhase
