import TwoPhase.Proofs.Determinant
import TwoPhase.Proofs.ExactNumber

/-!
Expansion into cofactors against the sum over all permutations, for integers and fractions in any
mixture and at every size, zero included. The expansion never leaves the exact numbers, so the two
are equal and not only close; where all entries are integers, so is the determinant.
-/
namespace TwoPhase

/-- A value is an exact number; where `p` holds, it is an integer. -/
def ExactNumber.Stands (p : Prop) (v : Value) (q : Rat) : Prop :=
  ∃ x : ExactNumber, v = x.value ∧ x.rat = q ∧ (p → x.IsInt)

theorem Arithmetic.respects_exactNumber (p : Prop) :
    Respects (Except ArithmeticFault) (ExactNumber.Stands p) where
  add := by
    rintro _ _ _ _ ⟨x, rfl, rfl, hx⟩ ⟨y, rfl, rfl, hy⟩
    exact ⟨_, x.value_add y, x + y, rfl, x.rat_add y,
      fun hp => (ExactNumber.isInt_combine _ _).2 ⟨hx hp, hy hp⟩⟩
  sub := by
    rintro _ _ _ _ ⟨x, rfl, rfl, hx⟩ ⟨y, rfl, rfl, hy⟩
    exact ⟨_, x.value_sub y, x - y, rfl, x.rat_sub y,
      fun hp => (ExactNumber.isInt_combine _ _).2 ⟨hx hp, hy hp⟩⟩
  mul := by
    rintro _ _ _ _ ⟨x, rfl, rfl, hx⟩ ⟨y, rfl, rfl, hy⟩
    exact ⟨_, x.value_mul y, x * y, rfl, x.rat_mul y,
      fun hp => (ExactNumber.isInt_combine _ _).2 ⟨hx hp, hy hp⟩⟩
  zero_add := by
    rintro _ _ ⟨y, rfl, rfl, hy⟩
    refine ⟨_, ExactNumber.value_add 0 y, 0 + y, rfl, ?_,
      fun hp => (ExactNumber.isInt_combine _ _).2 ⟨trivial, hy hp⟩⟩
    rw [ExactNumber.rat_add]
    exact zero_add y.rat

namespace MatrixSource

variable {n : Nat}

def numberLists (a : Matrix (Fin n) (Fin n) ExactNumber) : MatrixSource :=
  .nested (.list ((rowLists (a.map ExactNumber.value)).map .list))

/-- The expansion is the sum of the signed products along all permutations. -/
theorem cofactorDet_eq_sum (a : Matrix (Fin n) (Fin n) ExactNumber) :
    ∃ d : ExactNumber, (numberLists a).cofactorDet = .ok d.value ∧
      d.rat = ∑ σ : Equiv.Perm (Fin n), (Equiv.Perm.sign σ : Int) * ∏ i, (a i (σ i)).rat ∧
      ((∀ i j, (a i j).IsInt) → d.IsInt) := by
  cases n with
  | zero => exact ⟨.int 1, rfl, by simp [ExactNumber.rat], fun _ => trivial⟩
  | succ n =>
    have hholds : Cofactor.Holds (ExactNumber.Stands (∀ i j, (a i j).IsInt))
        (rowLists (a.map ExactNumber.value)) (a.map ExactNumber.rat) := by
      intro i j
      rw [entry_rowLists]
      exact ⟨a i j, rfl, rfl, fun hint => hint i j⟩
    obtain ⟨v, hv, d, rfl, hd, hint⟩ :=
      Cofactor.exists_expand (Arithmetic.respects_exactNumber _) hholds
    refine ⟨d, ?_, ?_, hint⟩
    · rw [numberLists, cofactorDet_rowLists, hv]
      rfl
    · rw [hd, ← Matrix.det_transpose, Matrix.det_apply']
      rfl

example : (numberLists !![.int 2, .int (-3), .int 1; .int 2, .int 0, .int (-1);
    .int 1, .int 4, .int 5]).cofactorDet = .ok (.int 49) := by cbv

end MatrixSource

end TwoPhase
