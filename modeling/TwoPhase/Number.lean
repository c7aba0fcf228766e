import TwoPhase.Binary64

/-!
Numbers of three kinds: integers, fractions and doubles. An operation first brings both operands
to the wider kind. Sums, differences and products keep the kind; a quotient of integers is the
nearest double, so integers are not closed under division, while fractions are. Comparison is
exact across kinds.
-/
namespace TwoPhase

inductive Number where
  | int (i : Int)
  | fraction (q : Rat)
  | float (x : Float)

inductive ArithmeticFault where
  | overflow
  | zeroDivision
  | notNumber
  deriving DecidableEq, Repr

namespace Number

inductive Pair where
  | ints (a b : Int)
  | fractions (a b : Rat)
  | floats (a b : Float)

def ofOption (x : Option Float) : Except ArithmeticFault Float := x.elim (.error .overflow) .ok

def toFloat : Number → Except ArithmeticFault Float
  | .int i => ofOption (Binary64.ofInt? i)
  | .fraction q => ofOption (Binary64.ofRat? q)
  | .float x => .ok x

def align : Number → Number → Except ArithmeticFault Pair
  | .int a, .int b => .ok (.ints a b)
  | .int a, .fraction b => .ok (.fractions a b)
  | .fraction a, .int b => .ok (.fractions a b)
  | .fraction a, .fraction b => .ok (.fractions a b)
  | a, b => do return .floats (← a.toFloat) (← b.toFloat)

def add (a b : Number) : Except ArithmeticFault Number := do
  match ← align a b with
  | .ints a b => return .int (a + b)
  | .fractions a b => return .fraction (a + b)
  | .floats a b => return .float (a + b)

def sub (a b : Number) : Except ArithmeticFault Number := do
  match ← align a b with
  | .ints a b => return .int (a - b)
  | .fractions a b => return .fraction (a - b)
  | .floats a b => return .float (a - b)

def mul (a b : Number) : Except ArithmeticFault Number := do
  match ← align a b with
  | .ints a b => return .int (a * b)
  | .fractions a b => return .fraction (a * b)
  | .floats a b => return .float (a * b)

/-- The quotient. Of two integers it is the nearest double, which carries the sign of the
divisor if the dividend is zero. -/
def div (a b : Number) : Except ArithmeticFault Number := do
  match ← align a b with
  | .ints a b =>
    if b = 0 then .error .zeroDivision
    else
      let negative := decide (a < 0) != decide (b < 0)
      return .float (← ofOption (Binary64.ofFraction? negative a.natAbs b.natAbs))
  | .fractions a b => if b = 0 then .error .zeroDivision else return .fraction (a / b)
  | .floats a b => if b == 0 then .error .zeroDivision else return .float (a / b)

def isZero : Number → Bool
  | .int i => decide (i = 0)
  | .fraction q => decide (q = 0)
  | .float x => x == 0

def abs : Number → Number
  | .int i => .int i.natAbs
  | .fraction q => .fraction (if q < 0 then -q else q)
  | .float x => .float x.abs

inductive Extended where
  | below
  | finite (q : Rat)
  | above

def extended : Number → Option Extended
  | .int i => some (.finite i)
  | .fraction q => some (.finite q)
  | .float x =>
    match Binary64.ofFloat x with
    | .nan => none
    | .infinite negative => some (if negative then .below else .above)
    | b => b.toRat?.map .finite

/-- The exact order; what is not a number is not in it. -/
def le (a b : Number) : Bool :=
  match a.extended, b.extended with
  | some (.finite p), some (.finite q) => decide (p ≤ q)
  | some .below, some _ => true
  | some _, some .above => true
  | _, _ => false

def eq (a b : Number) : Bool := a.le b && b.le a

def lt (a b : Number) : Bool := a.le b && !b.le a

end Number

end TwoPhase
