/-!
Cell arithmetic of a tableau: the four operations and the five tests that pivoting and pivot
selection use. Nothing is assumed about them, so rounding, infinities and not-a-number cells
are all covered; exact statements are made at the rational instance.
-/
namespace TwoPhase

universe u

/-- Numbers that can stand in a tableau. No law relates the operations to the tests. -/
class Cell (α : Type u) extends Zero α, One α, Add α, Sub α, Mul α, Div α, Neg α where
  isZero : α → Bool
  isNegative : α → Bool
  isNonpositive : α → Bool
  less : α → α → Bool
  /-- Below the top of the order; false of an infinite cell and of one that is not a number. -/
  isBelowTop : α → Bool

/-- IEEE binary64 cells, one rounding per operation. -/
instance : Cell Float where
  isZero x := x == 0
  isNegative x := decide (x < 0)
  isNonpositive x := decide (x ≤ 0)
  less x y := decide (x < y)
  isBelowTop x := decide (x < 1 / 0)

/-- Exact cells. Every rational is below the top. -/
instance : Cell Rat where
  zero := 0
  one := 1
  isZero x := decide (x = 0)
  isNegative x := decide (x < 0)
  isNonpositive x := decide (x ≤ 0)
  less x y := decide (x < y)
  isBelowTop _ := true

end TwoPhase
