import TwoPhase.Value

/-!
Cell arithmetic of row reduction and determinants. Operations run in a monad, since those on
loosely typed cells may fail. Nothing is assumed about them; exact statements are made at the
rational instance, where no operation fails.
-/
namespace TwoPhase

class Arithmetic (m : Type → Type) (α : Type) where
  isZero : α → Bool
  /-- One, or minus one. -/
  unit (negative : Bool) : α
  add : α → α → m α
  sub : α → α → m α
  mul : α → α → m α
  div : α → α → m α

instance : Arithmetic Id Rat where
  isZero q := decide (q = 0)
  unit negative := if negative then -1 else 1
  add a b := a + b
  sub a b := a - b
  mul a b := a * b
  div a b := a / b

instance : Arithmetic (Except ArithmeticFault) Float where
  isZero x := x == 0
  unit negative := if negative then -1 else 1
  add a b := .ok (a + b)
  sub a b := .ok (a - b)
  mul a b := .ok (a * b)
  div a b := .ok (a / b)

namespace Value

instance : Zero Value := ⟨.int 0⟩

def onNumbers (f : Number → Number → Except ArithmeticFault Number) (a b : Value) :
    Except ArithmeticFault Value :=
  match a.number?, b.number? with
  | some m, some n => (f m n).map ofNumber
  | _, _ => .error .notNumber

/-- The product of numbers. A text may be taken once. -/
def mul : Value → Value → Except ArithmeticFault Value
  | .int 1, .text s => .ok (.text s)
  | a, b => onNumbers Number.mul a b

end Value

instance : Arithmetic (Except ArithmeticFault) Value where
  isZero v := v.number?.any Number.isZero
  unit negative := .int (if negative then -1 else 1)
  add := Value.onNumbers Number.add
  sub := Value.onNumbers Number.sub
  mul := Value.mul
  div := Value.onNumbers Number.div

instance zeroText : Zero String := ⟨""⟩

instance : Arithmetic (Except ArithmeticFault) String where
  isZero _ := false
  unit _ := ""
  add _ _ := .error .notNumber
  sub _ _ := .error .notNumber
  mul _ _ := .error .notNumber
  div _ _ := .error .notNumber

end TwoPhase
