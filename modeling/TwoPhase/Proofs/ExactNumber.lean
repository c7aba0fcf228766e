import Mathlib.Algebra.Order.Field.Rat
import TwoPhase.Matrix.Arithmetic

/-!
Integers and fractions in any mixture. Sums, differences and products of integers are integers, and
a fraction on either side makes the result a fraction; so these three operations never fail or
round. Division is left out here: of two integers it gives a double.
-/
namespace TwoPhase

inductive ExactNumber where
  | int (i : Int)
  | fraction (q : Rat)
  deriving DecidableEq, Repr

namespace ExactNumber

instance : Zero ExactNumber := ⟨.int 0⟩

def value : ExactNumber → Value
  | .int i => .int i
  | .fraction q => .fraction q

def rat : ExactNumber → Rat
  | .int i => i
  | .fraction q => q

def IsInt : ExactNumber → Prop
  | .int _ => True
  | .fraction _ => False

instance (x : ExactNumber) : Decidable x.IsInt :=
  match x with
  | .int _ => .isTrue trivial
  | .fraction _ => .isFalse id

def IsNonzeroInt (x : ExactNumber) : Prop := x.IsInt ∧ x.rat ≠ 0

instance (x : ExactNumber) : Decidable x.IsNonzeroInt :=
  inferInstanceAs (Decidable (x.IsInt ∧ x.rat ≠ 0))

/-- Integers are combined to an integer, all else to a fraction. -/
def combine (ints : Int → Int → Int) (rats : Rat → Rat → Rat) :
    ExactNumber → ExactNumber → ExactNumber
  | .int a, .int b => .int (ints a b)
  | x, y => .fraction (rats x.rat y.rat)

instance : Add ExactNumber := ⟨combine (· + ·) (· + ·)⟩

instance : Sub ExactNumber := ⟨combine (· - ·) (· - ·)⟩

instance : Mul ExactNumber := ⟨combine (· * ·) (· * ·)⟩

variable (x y : ExactNumber)

theorem rat_combine {ints : Int → Int → Int} {rats : Rat → Rat → Rat}
    (h : ∀ a b : Int, ((ints a b : Int) : Rat) = rats a b) :
    (combine ints rats x y).rat = rats x.rat y.rat := by
  cases x with
  | fraction p => rfl
  | int a =>
    cases y with
    | fraction q => rfl
    | int b => exact h a b

theorem rat_add : (x + y).rat = x.rat + y.rat := rat_combine x y Int.cast_add

theorem rat_sub : (x - y).rat = x.rat - y.rat := rat_combine x y Int.cast_sub

theorem rat_mul : (x * y).rat = x.rat * y.rat := rat_combine x y Int.cast_mul

theorem isInt_combine {x y : ExactNumber} (ints : Int → Int → Int) (rats : Rat → Rat → Rat) :
    (combine ints rats x y).IsInt ↔ x.IsInt ∧ y.IsInt := by
  cases x with
  | fraction p => exact ⟨False.elim, fun h => h.1⟩
  | int a =>
    cases y with
    | fraction q => exact ⟨False.elim, fun h => h.2⟩
    | int b => exact ⟨fun _ => ⟨trivial, trivial⟩, fun _ => trivial⟩

theorem value_add : Value.onNumbers Number.add x.value y.value = .ok (x + y).value := by
  cases x <;> cases y <;> rfl

theorem value_sub : Value.onNumbers Number.sub x.value y.value = .ok (x - y).value := by
  cases x <;> cases y <;> rfl

/-- Among numbers the rule for texts does not apply. -/
theorem value_mul : Value.mul x.value y.value = .ok (x * y).value := by
  have hnumbers : Value.mul x.value y.value = Value.onNumbers Number.mul x.value y.value := by
    rw [Value.mul]
    intro s _ hy
    cases y <;> simp [value] at hy
  rw [hnumbers]
  cases x <;> cases y <;> rfl

end ExactNumber

end TwoPhase
