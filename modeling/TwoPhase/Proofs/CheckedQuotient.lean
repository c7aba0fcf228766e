import TwoPhase.Proofs.Clearing
import TwoPhase.Proofs.ExactNumber
import TwoPhase.Proofs.Underflow

/-!
Clearing a column of integers and fractions. A quotient of two integers is a double, and a double
makes doubles of all that it is combined with. So an arithmetic that refuses such quotients tells
what a clearing does: where it returns, the clearing leaves the same exact numbers; where it
refuses, the clearing fails or leaves a double. One quotient of integers is not refused: if the
nearest double is zero, no row is changed by it.
-/
namespace TwoPhase

theorem Number.floats_of_align {a b : Number} {p : Number.Pair}
    (h : (∃ x, a = .float x) ∨ ∃ x, b = .float x) (hp : a.align b = .ok p) :
    ∃ x y, p = .floats x y := by
  have hfloats : a.align b = a.toFloat >>= fun x => b.toFloat >>= fun y => .ok (.floats x y) := by
    rcases h with ⟨x, rfl⟩ | ⟨x, rfl⟩
    · cases b <;> rfl
    · cases a <;> rfl
  rw [hfloats] at hp
  obtain ⟨x, -, hp⟩ := bind_eq_ok.1 hp
  obtain ⟨y, -, hp⟩ := bind_eq_ok.1 hp
  exact ⟨x, y, (Except.ok.inj hp).symm⟩

namespace Value

def IsFloat (v : Value) : Prop := ∃ x, v = .float x

variable {a b v : Value}

theorem onNumbers_eq_ok {f : Number → Number → Except ArithmeticFault Number}
    (h : onNumbers f a b = .ok v) :
    ∃ m n q, a.number? = some m ∧ b.number? = some n ∧ f m n = .ok q ∧ ofNumber q = v := by
  rw [onNumbers] at h
  cases hm : a.number? with
  | none => simp [hm] at h
  | some m =>
    cases hn : b.number? with
    | none => simp [hm, hn] at h
    | some n =>
      rw [hm, hn] at h
      obtain ⟨q, hq, hv⟩ := map_eq_ok h
      exact ⟨m, n, q, rfl, rfl, hq, hv⟩

theorem IsFloat.number? (h : a.IsFloat) {m : Number} (hm : a.number? = some m) :
    ∃ x, m = .float x := by
  obtain ⟨x, rfl⟩ := h
  exact ⟨x, (Option.some.inj hm).symm⟩

theorem isFloat_sub (h : a.IsFloat ∨ b.IsFloat)
    (hv : Arithmetic.sub a b = (.ok v : Except ArithmeticFault Value)) : v.IsFloat := by
  obtain ⟨m, n, q, hm, hn, hq, rfl⟩ := onNumbers_eq_ok hv
  obtain ⟨p, hp, hq⟩ := bind_eq_ok.1 hq
  obtain ⟨x, y, rfl⟩ := Number.floats_of_align (h.imp (·.number? hm) (·.number? hn)) hp
  exact ⟨x - y, congrArg ofNumber (Except.ok.inj hq).symm⟩

theorem isFloat_mul (h : a.IsFloat)
    (hv : Arithmetic.mul a b = (.ok v : Except ArithmeticFault Value)) : v.IsFloat := by
  obtain ⟨x, rfl⟩ := h
  obtain ⟨m, n, q, hm, -, hq, rfl⟩ := onNumbers_eq_ok (a := .float x) hv
  obtain ⟨p, hp, hq⟩ := bind_eq_ok.1 hq
  obtain ⟨x, y, rfl⟩ := Number.floats_of_align (.inl ⟨x, (Option.some.inj hm).symm⟩) hp
  exact ⟨x * y, congrArg ofNumber (Except.ok.inj hq).symm⟩

end Value

namespace ExactNumber

theorem not_isFloat_value (x : ExactNumber) : ¬x.value.IsFloat := by
  rintro ⟨f, hf⟩
  cases x <;> cases hf

/-- A quotient that would be rounded, or that does not exist. -/
structure Refused where
  dividend : ExactNumber
  divisor : ExactNumber
  deriving DecidableEq, Repr

/-- The size of a quotient of integers is at most half of the least positive double. -/
def Vanishes (a b : Int) : Prop := b ≠ 0 ∧ a.natAbs * twoTo 1075 ≤ b.natAbs

instance (a b : Int) : Decidable (Vanishes a b) :=
  inferInstanceAs (Decidable (b ≠ 0 ∧ a.natAbs * twoTo 1075 ≤ b.natAbs))

def quotient : ExactNumber → ExactNumber → Except Refused ExactNumber
  | .int a, .int b => if Vanishes a b then .ok (.int 0) else .error ⟨.int a, .int b⟩
  | x, y => if y.rat = 0 then .error ⟨x, y⟩ else .ok (.fraction (x.rat / y.rat))

instance : Arithmetic (Except Refused) ExactNumber where
  isZero x := decide (x.rat = 0)
  unit negative := .int (if negative then -1 else 1)
  add x y := .ok (x + y)
  sub x y := .ok (x - y)
  mul x y := .ok (x * y)
  div := quotient

variable {x y q : ExactNumber} {a b : Int} {n : Number}

theorem isZero_value (x : ExactNumber) :
    Arithmetic.isZero (Except ArithmeticFault) x.value = Arithmetic.isZero (Except Refused) x := by
  cases x with
  | int a => exact decide_eq_decide.2 Rat.intCast_eq_zero_iff.symm
  | fraction q => rfl

theorem isZero_ofNumber (n : Number) :
    Arithmetic.isZero (Except ArithmeticFault) (Value.ofNumber n) = n.isZero := by
  cases n <;> rfl

/-- A quotient of integers is a double, if there is one, and then a zero only if it vanishes. -/
theorem isFloat_div_int (h : Number.div (.int a) (.int b) = .ok n) :
    (Value.ofNumber n).IsFloat ∧ (n.isZero = true ↔ Vanishes a b) := by
  obtain ⟨x, rfl, hzero⟩ := Number.exists_float_of_div_int h
  refine ⟨⟨x, rfl⟩, ?_⟩
  rw [Number.isZero, hzero, decide_eq_true_iff]
  exact (and_iff_right (Number.ne_zero_of_div_int h)).symm

theorem exists_div_of_vanishes (h : Vanishes a b) :
    ∃ n, Number.div (.int a) (.int b) = .ok n ∧ n.isZero = true := by
  obtain ⟨n, hn⟩ := Number.exists_div_int h.1 h.2
  exact ⟨n, hn, (isFloat_div_int hn).2.2 h⟩

theorem exists_int {x : ExactNumber} (h : x.IsInt) : ∃ a, x = .int a := by
  cases x with
  | int a => exact ⟨a, rfl⟩
  | fraction q => exact h.elim

theorem quotient_eq (h : ¬(x.IsInt ∧ y.IsInt)) :
    quotient x y = if y.rat = 0 then .error ⟨x, y⟩ else .ok (fraction (x.rat / y.rat)) := by
  cases x with
  | int a =>
    cases y with
    | int b => exact absurd ⟨trivial, trivial⟩ h
    | fraction q => rfl
  | fraction p => rfl

theorem div_value (h : ¬(x.IsInt ∧ y.IsInt)) :
    (Arithmetic.div x.value y.value : Except ArithmeticFault Value) =
      if y.rat = 0 then .error .zeroDivision else .ok (fraction (x.rat / y.rat)).value := by
  cases x with
  | int a =>
    cases y with
    | int b => exact absurd ⟨trivial, trivial⟩ h
    | fraction q => exact apply_ite (Except.map Value.ofNumber) (q = 0) _ _
  | fraction p =>
    cases y with
    | int b => exact apply_ite (Except.map Value.ofNumber) ((b : Rat) = 0) _ _
    | fraction q => exact apply_ite (Except.map Value.ofNumber) (q = 0) _ _

/-- A quotient that is not refused is the one of the cells, or both are zero. -/
theorem div_of_quotient (h : quotient x y = .ok q) :
    ∃ v, Arithmetic.div x.value y.value = (.ok v : Except ArithmeticFault Value) ∧
      (v = q.value ∨ Arithmetic.isZero (Except ArithmeticFault) v = true ∧ q.rat = 0) := by
  by_cases hints : x.IsInt ∧ y.IsInt
  · obtain ⟨a, rfl⟩ := exists_int hints.1
    obtain ⟨b, rfl⟩ := exists_int hints.2
    rw [quotient] at h
    by_cases hzero : Vanishes a b
    · rw [if_pos hzero] at h
      obtain ⟨n, hdiv, hn⟩ := exists_div_of_vanishes hzero
      obtain rfl := Except.ok.inj h
      exact ⟨.ofNumber n, congrArg (Except.map Value.ofNumber) hdiv,
        .inr ⟨(isZero_ofNumber n).trans hn, Int.cast_zero⟩⟩
    · rw [if_neg hzero] at h
      cases h
  · rw [quotient_eq hints] at h
    rw [div_value hints]
    by_cases hy : y.rat = 0
    · rw [if_pos hy] at h
      cases h
    · rw [if_neg hy] at h ⊢
      obtain rfl := Except.ok.inj h
      exact ⟨_, rfl, .inl rfl⟩

/-- Where a quotient is refused, the one of the cells is a double other than zero, if any. -/
theorem isFloat_of_refused {refused : Refused} (h : quotient x y = .error refused) {v : Value}
    (hv : Arithmetic.div x.value y.value = (.ok v : Except ArithmeticFault Value)) :
    v.IsFloat ∧ Arithmetic.isZero (Except ArithmeticFault) v = false := by
  by_cases hints : x.IsInt ∧ y.IsInt
  · obtain ⟨a, rfl⟩ := exists_int hints.1
    obtain ⟨b, rfl⟩ := exists_int hints.2
    obtain ⟨n, hdiv, rfl⟩ := map_eq_ok (x := Number.div (.int a) (.int b)) hv
    obtain ⟨hfloat, hzero⟩ := isFloat_div_int hdiv
    refine ⟨hfloat, ?_⟩
    rw [isZero_ofNumber, Bool.eq_false_iff, ne_eq, hzero]
    intro hvanishes
    rw [quotient, if_pos hvanishes] at h
    cases h
  · rw [quotient_eq hints] at h
    rw [div_value hints] at hv
    by_cases hy : y.rat = 0
    · rw [if_pos hy] at hv
      cases hv
    · rw [if_neg hy] at h
      cases h

end ExactNumber

namespace Reduction

open Arithmetic ExactNumber

section Cells

variable {g : Grid ExactNumber} {r c i j : Nat} {x : ExactNumber} {v : Value}

theorem clearedCell_value (hr : r < g.height) (hc : c < g.width) (hi : i < g.height)
    (hj : j < g.width) (h : clearedCell (Except Refused) g r c i j = .ok x) :
    clearedCell (Except ArithmeticFault) (g.map value) r c i j = .ok x.value := by
  rw [clearedCell] at h ⊢
  rw [Grid.cell_map hi hj, Grid.cell_map hi hc, Grid.cell_map hr hc, Grid.cell_map hr hj]
  by_cases hir : i = r
  · rw [if_pos hir] at h ⊢
    exact congrArg (Except.ok ·.value) (Except.ok.inj h)
  rw [if_neg hir] at h ⊢
  obtain ⟨factor, hfactor, h⟩ := bind_eq_ok.1 h
  obtain ⟨u, hu, hsame⟩ := div_of_quotient hfactor
  refine bind_eq_ok.2 ⟨u, hu, ?_⟩
  have hzeros : isZero (Except ArithmeticFault) u = isZero (Except Refused) factor := by
    rcases hsame with rfl | ⟨hzero, hrat⟩
    · exact isZero_value factor
    · exact hzero.trans (decide_eq_true hrat).symm
  rw [hzeros]
  by_cases hzero : isZero (Except Refused) factor = true
  · rw [if_pos hzero] at h ⊢
    exact congrArg (Except.ok ·.value) (Except.ok.inj h)
  · rw [if_neg hzero] at h ⊢
    obtain rfl : u = factor.value := hsame.resolve_right fun hboth => hzero (decide_eq_true hboth.2)
    obtain rfl : g.cell i j - factor * g.cell r j = x := Except.ok.inj h
    exact bind_eq_ok.2 ⟨_, value_mul factor _, value_sub _ _⟩

theorem isFloat_clearedCell_of_refused {refused : Refused} (hr : r < g.height) (hc : c < g.width)
    (hi : i < g.height) (hj : j < g.width)
    (h : clearedCell (Except Refused) g r c i j = .error refused)
    (hv : clearedCell (Except ArithmeticFault) (g.map value) r c i j = .ok v) : v.IsFloat := by
  rw [clearedCell] at h hv
  rw [Grid.cell_map hi hj, Grid.cell_map hi hc, Grid.cell_map hr hc, Grid.cell_map hr hj] at hv
  by_cases hir : i = r
  · rw [if_pos hir] at h
    cases h
  rw [if_neg hir] at h hv
  obtain ⟨u, hu, hv⟩ := bind_eq_ok.1 hv
  cases hfactor : quotient (g.cell i c) (g.cell r c) with
  | ok factor =>
    -- Only the quotient can be refused.
    simp only [Arithmetic.div, hfactor, bind, Except.bind] at h
    by_cases hzero : isZero (Except Refused) factor = true
    · rw [if_pos hzero] at h
      cases h
    · rw [if_neg hzero] at h
      cases h
  | error _ =>
    obtain ⟨hfloat, hzero⟩ := isFloat_of_refused hfactor hu
    rw [hzero] at hv
    obtain ⟨product, hproduct, hv⟩ := bind_eq_ok.1 hv
    exact Value.isFloat_sub (.inr (Value.isFloat_mul hfloat hproduct)) hv

end Cells

theorem isFloat_clearedCell {g : Grid Value} {r c i j : Nat} {v : Value}
    (h : (g.cell i j).IsFloat)
    (hv : clearedCell (Except ArithmeticFault) g r c i j = .ok v) : v.IsFloat := by
  rw [clearedCell] at hv
  by_cases hir : i = r
  · rw [if_pos hir] at hv
    exact Except.ok.inj hv ▸ h
  rw [if_neg hir] at hv
  obtain ⟨factor, -, hv⟩ := bind_eq_ok.1 hv
  by_cases hzero : isZero (Except ArithmeticFault) factor = true
  · rw [if_pos hzero] at hv
    exact Except.ok.inj hv ▸ h
  · rw [if_neg hzero] at hv
    obtain ⟨product, -, hv⟩ := bind_eq_ok.1 hv
    exact Value.isFloat_sub (.inl h) hv

end Reduction

end TwoPhase
