import Mathlib
import TwoPhase.Number
import TwoPhase.Proofs.Loops

/-!
Which quotients of integers are rounded to zero. The least positive double is `2 ^ (-1074)`, and a
half goes to the even neighbour, so these are the quotients of size up to `2 ^ (-1075)`. What is
rounded to other bits is not equal to zero. The lemmas on the bits of doubles come only with the
whole library.
-/
namespace TwoPhase

theorem twoTo_succ (n : Nat) : twoTo (n + 1) = 2 * twoTo n := Nat.pow_succ'

theorem roundDiv_eq_zero_iff {num den : Nat} (hden : 0 < den) :
    roundDiv num den = 0 ↔ 2 * num ≤ den := by
  have hsplit := Nat.div_add_mod num den
  rw [roundDiv]
  by_cases hlt : num < den
  · rw [Nat.div_eq_of_lt hlt, Nat.mod_eq_of_lt hlt]
    grind
  · have hq : 0 < num / den := Nat.div_pos (not_lt.1 hlt) hden
    grind

namespace Binary64

theorem lt_mul_twoTo {num den k : Nat} (hnum : num ≠ 0) (h : den.log2 < num.log2 + k) :
    den < num * twoTo k :=
  calc den < 2 ^ (den.log2 + 1) := Nat.lt_log2_self
    _ ≤ 2 ^ (num.log2 + k) := Nat.pow_le_pow_right Nat.two_pos h
    _ = 2 ^ num.log2 * 2 ^ k := Nat.pow_add ..
    _ ≤ num * 2 ^ k := Nat.mul_le_mul_right _ (Nat.log2_self_le hnum)

theorem nearestBits_eq_zero_iff {num den : Nat} (hden : 0 < den) :
    nearestBits num den = 0 ↔ num * twoTo 1075 ≤ den := by
  by_cases hnum : num = 0
  · simp [nearestBits, hnum]
  rw [nearestBits, if_neg hnum]
  extract_lets rough quotient
  let e := if (quotient rough).1 / (quotient rough).2 < twoTo 52 ∧ -1074 < rough then rough - 1
    else rough
  change (e + 1074).toNat * twoTo 52 + roundDiv (quotient e).1 (quotient e).2 = 0 ↔ _
  -- Only at the least exponent can all bits be zero, and all smaller quotients have it.
  have hrough : -1074 ≤ rough := le_max_right _ _
  have hlow : -1074 ≤ e := by
    simp only [e]
    split_ifs <;> omega
  have hlarge : -1074 < e → den < num * twoTo 1075 := by
    intro hlt
    have hlt : -1074 < rough := by
      simp only [e] at hlt
      split_ifs at hlt <;> omega
    refine lt_mul_twoTo hnum ?_
    simp only [rough, Int.ofNat_eq_natCast] at hlt
    omega
  by_cases hleast : e = -1074
  · have hquotient : quotient (-1074) = (num * twoTo 1074, den) := rfl
    rw [hleast, hquotient, twoTo_succ 1074, Nat.mul_left_comm]
    simpa using roundDiv_eq_zero_iff hden
  · have hpos : 0 < twoTo 52 := Nat.two_pow_pos 52
    have hbits : 0 < (e + 1074).toNat * twoTo 52 := Nat.mul_pos (by omega) hpos
    have hden := hlarge (by omega)
    omega

open Float.Model (Format)
open Float.Model.UnpackedFloat (packedNaN pack_unpack)

/-- A double that is a number keeps the bits from which it is read. -/
theorem eq_toBits_of_ofBits {bits : UInt64} {x : Float} (h : Float.ofBits bits = x)
    (hx : x.toBits.toBitVec ≠ packedNaN .binary64) : bits = x.toBits := by
  subst h
  have hpacked : (Float.ofBits bits).toBits.toBitVec = _ :=
    @pack_unpack .binary64 bits.toBitVec (by decide)
  split_ifs at hpacked with hnan
  · exact absurd hpacked hx
  · exact (UInt64.toBitVec_inj.1 hpacked).symm

theorem bits_of_beq_zero {bits : UInt64} (h : (Float.ofBits bits == 0) = true) :
    bits.toNat = 0 ∨ bits.toNat = twoTo 63 := by
  obtain ⟨-, -, hzero | ⟨hzero, -⟩ | ⟨hzero, -⟩⟩ := Float.beq_iff_ne_nan_and_eq.1 h
  · rw [eq_toBits_of_ofBits hzero (by decide)]
    exact .inl rfl
  · rw [eq_toBits_of_ofBits hzero (by decide)]
    exact .inl rfl
  · rw [eq_toBits_of_ofBits hzero (by decide)]
    exact .inr rfl

/-- A rounded quotient is zero exactly if it is at most half of the least positive double. -/
theorem beq_zero_of_ofFraction? {negative : Bool} {num den : Nat} {x : Float} (hden : 0 < den)
    (h : ofFraction? negative num den = some x) :
    (x == 0) = decide (num * twoTo 1075 ≤ den) := by
  rw [ofFraction?] at h
  by_cases hrange : nearestBits num den < 2047 * twoTo 52
  · rw [if_pos hrange] at h
    obtain rfl := Option.some.inj h
    rw [Bool.eq_iff_iff, decide_eq_true_iff, ← nearestBits_eq_zero_iff hden]
    constructor
    · intro hzero
      have hbits := bits_of_beq_zero hzero
      have hfield : twoTo 52 = 2 ^ 52 := rfl
      have hsign : twoTo 63 = 2 ^ 63 := rfl
      rw [UInt64.toNat_ofNat', hsign] at hbits
      rw [hfield] at hrange
      cases negative with
      | false =>
        rw [if_neg Bool.false_ne_true] at hbits
        omega
      | true =>
        rw [if_pos rfl] at hbits
        omega
    · intro hzero
      rw [hzero]
      cases negative <;> decide +kernel
  · rw [if_neg hrange] at h
    cases h

theorem exists_ofFraction? (negative : Bool) {num den : Nat} (hden : 0 < den)
    (h : num * twoTo 1075 ≤ den) : ∃ x, ofFraction? negative num den = some x := by
  have hrange : nearestBits num den < 2047 * twoTo 52 := by
    rw [(nearestBits_eq_zero_iff hden).2 h]
    decide
  exact ⟨_, if_pos hrange⟩

end Binary64

namespace Number

variable {a b : Int} {n : Number}

theorem div_int_eq (a : Int) (hb : b ≠ 0) :
    div (.int a) (.int b) =
      (ofOption (Binary64.ofFraction? (decide (a < 0) != decide (b < 0)) a.natAbs b.natAbs)).map
        .float := by
  simp only [div, align, bind, Except.bind, if_neg hb]
  rfl

theorem ne_zero_of_div_int (h : div (.int a) (.int b) = .ok n) : b ≠ 0 := by
  rintro rfl
  cases h

/-- A quotient of integers is a double, if there is one, and zero up to `2 ^ (-1075)`. -/
theorem exists_float_of_div_int (h : div (.int a) (.int b) = .ok n) :
    ∃ x, n = .float x ∧ (x == 0) = decide (a.natAbs * twoTo 1075 ≤ b.natAbs) := by
  have hb := ne_zero_of_div_int h
  rw [div_int_eq a hb] at h
  obtain ⟨x, hx, rfl⟩ := map_eq_ok h
  refine ⟨x, rfl, ?_⟩
  cases hround : Binary64.ofFraction? (decide (a < 0) != decide (b < 0)) a.natAbs b.natAbs with
  | none =>
    rw [hround] at hx
    cases hx
  | some y =>
    rw [hround] at hx
    obtain rfl := Except.ok.inj hx
    exact Binary64.beq_zero_of_ofFraction? (Int.natAbs_pos.2 hb) hround

theorem exists_div_int (hb : b ≠ 0) (h : a.natAbs * twoTo 1075 ≤ b.natAbs) :
    ∃ n, div (.int a) (.int b) = .ok n := by
  obtain ⟨x, hx⟩ := Binary64.exists_ofFraction? (decide (a < 0) != decide (b < 0))
    (Int.natAbs_pos.2 hb) h
  exact ⟨.float x, by rw [div_int_eq a hb, hx]; rfl⟩

end Number

end TwoPhase
