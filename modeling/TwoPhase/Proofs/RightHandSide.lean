import TwoPhase.Proofs.Feasibility

/-!
The right-hand side along a run over the rationals. A row whose right-hand side is nonnegative
keeps it so, and a row that was the pivot row has it so, also at a negative pivot cell. Hence an
artificial variable that has left its row has left a nonnegative right-hand side behind, and only
an inequality row that was negative from the start can stay negative.
-/
namespace TwoPhase

namespace Tableau

variable {t t' : Tableau Rat} {i : Nat}

def rhs (t : Tableau Rat) (i : Nat) : Rat := t.cells.cell i t.rhsCol

/-- A pivot row ends nonnegative, and no other row turns negative. -/
theorem rhs_exchange_nonneg {row r c : Nat} (hm : t.constraintRows ≤ t.cells.height)
    (h : t.choice row = some ⟨some r, c⟩) (hi : i < t.constraintRows)
    (h0 : i = r ∨ 0 ≤ t.rhs i) : 0 ≤ (t.exchange r c).rhs i := by
  have hc := (choice_pivotal h).col
  obtain ⟨hne, hq, hleast⟩ := Grid.leaving_spec (choice_eq_some h).2
  rw [rhs, rhsCol_exchange, t.cell_exchange r c (by omega) le_rfl]
  by_cases hir : i = r
  · rw [if_pos hir, if_neg (by omega)]
    exact hq
  · rw [if_neg hir, if_neg (by omega), mul_div_assoc, sub_nonneg]
    have hrhs : 0 ≤ t.cells.cell i t.rhsCol := h0.resolve_left hir
    rcases le_or_gt (t.cells.cell i c) 0 with hneg | hpos
    · exact (mul_nonpos_of_nonpos_of_nonneg hneg hq).trans hrhs
    · have hratio := hleast i hi hpos.ne' (div_nonneg hrhs hpos.le)
      rw [le_div_iff₀ hpos] at hratio
      linarith

theorem Next.rhs_nonneg (hm : t.constraintRows ≤ t.cells.height) (h : Next t t')
    (hi : i < t.constraintRows) (h0 : 0 ≤ t.rhs i) : 0 ≤ t'.rhs i := by
  obtain ⟨r, c, hc, rfl⟩ := h
  exact rhs_exchange_nonneg hm hc hi (.inr h0)

theorem Next.rowVar_eq_or (hm : t.constraintRows ≤ t.cells.height) (h : Next t t')
    (hi : i < t.constraintRows) : t'.rowVar i = t.rowVar i ∨ 0 ≤ t'.rhs i := by
  obtain ⟨r, c, hc, rfl⟩ := h
  by_cases hir : i = r
  · exact .inr (rhs_exchange_nonneg hm hc hi (.inl hir))
  · rw [t.rowVar_exchange (choice_pivotal hc).row, if_neg hir]
    exact .inl rfl

theorem Reaches.rhs_nonneg (hm : t.constraintRows ≤ t.cells.height) (h : Reaches t t')
    (hi : i < t.constraintRows) (h0 : 0 ≤ t.rhs i) : 0 ≤ t'.rhs i := by
  induction h with
  | refl => exact h0
  | tail hreach hnext ih =>
    refine hnext.rhs_nonneg (Reaches.constraintRows_le hreach hm) ?_ ih
    rw [Reaches.constraintRows hreach]
    exact hi

theorem Reaches.rowVar_eq_or (hm : t.constraintRows ≤ t.cells.height) (h : Reaches t t')
    (hi : i < t.constraintRows) : t'.rowVar i = t.rowVar i ∨ 0 ≤ t'.rhs i := by
  induction h with
  | refl => exact .inl rfl
  | @tail t₁ t₂ hreach hnext ih =>
    have hm' := Reaches.constraintRows_le hreach hm
    have hi' : i < t₁.constraintRows := by
      rw [Reaches.constraintRows hreach]
      exact hi
    rcases ih with hvar | h0
    · rw [← hvar]
      exact hnext.rowVar_eq_or hm' hi'
    · exact .inr (hnext.rhs_nonneg hm' hi' h0)

end Tableau

open Tableau

variable {p : LinearProgram Rat} {t : Tableau Rat} {i : Nat}

theorem rhs_phaseOne_upper (p : LinearProgram Rat) (hi : i < p.inequalityRows) :
    (phaseOne p).rhs i = p.upper.rhs[i]?.getD 0 := by
  rw [rhs, rhsCol_phaseOne, cell_phaseOne_upper p hi le_rfl]
  exact if_pos rfl

theorem rhs_phaseOne_equal (p : LinearProgram Rat) (hi : i < p.equalityRows) :
    (phaseOne p).rhs (p.inequalityRows + i) = p.equal.rhs[i]?.getD 0 := by
  rw [rhs, rhsCol_phaseOne, cell_phaseOne_equal p hi le_rfl]
  exact if_pos rfl

theorem first_rhs_nonneg (hb : ∀ a ∈ p.upper.rhs, 0 ≤ a) (hb' : ∀ a ∈ p.equal.rhs, 0 ≤ a)
    (h : Reaches (phaseOne p) t) (hi : i < t.constraintRows) : 0 ≤ t.rhs i := by
  rw [first_constraintRows h] at hi
  refine h.rhs_nonneg (by simp) (by simpa using hi) ?_
  by_cases hiu : i < p.inequalityRows
  · rw [rhs_phaseOne_upper p hiu]
    exact hb _ (p.upper.rhs_getD hiu)
  · have hie : i - p.inequalityRows < p.equalityRows := by
      rw [LinearProgram.constraintRows] at hi
      omega
    rw [show i = p.inequalityRows + (i - p.inequalityRows) by omega, rhs_phaseOne_equal p hie]
    exact hb' _ (p.equal.rhs_getD hie)

/-- Once the artificial variables have left, only inequality rows that began negative can be
negative. -/
theorem second_rhs_nonneg_or (h : SecondState p t) (hi : i < p.constraintRows) :
    0 ≤ t.rhs i ∨ i < p.inequalityRows ∧ p.upper.rhs[i]?.getD 0 < 0 := by
  obtain ⟨t₁, hfirst, -, hclear, hsecond⟩ := h
  have hrows := first_constraintRows hfirst
  have hkeep : 0 ≤ t₁.rhs i → 0 ≤ t.rhs i := by
    intro h0
    refine hsecond.rhs_nonneg (by simp) (by simpa [hrows] using hi) ?_
    rw [rhs, cell_compact_rhs (by omega), if_neg (by omega)]
    exact h0
  by_cases hiu : i < p.inequalityRows
  · by_cases hneg : p.upper.rhs[i]?.getD 0 < 0
    · exact .inr ⟨hiu, hneg⟩
    · refine .inl (hkeep (hfirst.rhs_nonneg (by simp) (by simpa using hi) ?_))
      rw [rhs_phaseOne_upper p hiu]
      exact not_lt.1 hneg
  · refine .inl (hkeep ?_)
    -- the artificial variable of this equality row is not basic any more
    refine (hfirst.rowVar_eq_or (by simp) (by simpa using hi)).resolve_left fun hvar => ?_
    have hle := hclear.basis _ (rowVar_mem (hrows ▸ hi))
    rw [hvar, rowVar_phaseOne p hi, LinearProgram.threshold] at hle
    omega

theorem second_rhs_nonneg (hb : ∀ a ∈ p.upper.rhs, 0 ≤ a) (h : SecondState p t)
    (hi : i < p.constraintRows) : 0 ≤ t.rhs i := by
  refine (second_rhs_nonneg_or h hi).resolve_right fun ⟨hiu, hneg⟩ => ?_
  exact not_le.2 hneg (hb _ (p.upper.rhs_getD hiu))

end TwoPhase
