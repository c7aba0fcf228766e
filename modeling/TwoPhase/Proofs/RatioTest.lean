import TwoPhase.Proofs.RightHandSide
import TwoPhase.Proofs.SelectionRule

/-!
The ratio test over the rationals. A pivot that is selected from nonnegative right-hand sides leaves
them nonnegative, whichever row the costs stand in. The test admits negative entries: there the
right-hand side has to be zero, and a pivot at such an entry changes no right-hand side. Nothing is
assumed of the shape or of the costs; that the pivot is made is concluded.
-/
namespace TwoPhase

namespace Tableau

variable {t : Tableau Rat} {row r c i : Nat}

/-- A negative entry passes the test only over a right-hand side of zero. -/
theorem rhs_eq_zero_of_neg (h : t.choice row = some ⟨some r, c⟩) (hrhs : 0 ≤ t.rhs r)
    (hneg : t.cells.cell r c < 0) : t.rhs r = 0 := by
  have hratio : 0 ≤ t.rhs r / t.cells.cell r c := (Grid.leaving_spec (choice_eq_some h).2).2.1
  refine le_antisymm ?_ hrhs
  calc t.rhs r = t.rhs r / t.cells.cell r c * t.cells.cell r c :=
        (div_mul_cancel₀ _ hneg.ne).symm
    _ ≤ 0 := mul_nonpos_of_nonneg_of_nonpos hratio hneg.le

/-- Where the right-hand side of the pivot row is zero, an exchange moves no right-hand side. -/
theorem rhs_exchange_of_zero (hi : i < t.cells.height) (hc : c < t.rhsCol) (hzero : t.rhs r = 0) :
    (t.exchange r c).rhs i = t.rhs i := by
  have hrhs : t.cells.cell r t.rhsCol = 0 := hzero
  rw [rhs, rhsCol_exchange, t.cell_exchange r c hi le_rfl, if_neg hc.ne', if_neg hc.ne', hrhs,
    zero_div, mul_zero, zero_div, sub_zero]
  split
  · next hir =>
    rw [hir]
    exact hzero.symm
  · rfl

/-- Where all right-hand sides of constraint rows are nonnegative, a pivot that is selected can be
made and leaves them nonnegative; at a negative entry it leaves them as they are. -/
theorem rhs_nonneg_of_selectPivot (t : Tableau Rat) (k : Int) {r c : Nat}
    (hrhs : ∀ i < t.constraintRows, 0 ≤ t.rhs i)
    (hselect : t.selectPivot k = .ok (some ⟨some r, c⟩)) :
    ∃ t', t.pivot r c = (t', none) ∧ t'.constraintRows = t.constraintRows ∧
      (∀ i < t'.constraintRows, 0 ≤ t'.rhs i) ∧
      (t.cells.cell r c < 0 → ∀ i < t'.constraintRows, t'.rhs i = t.rhs i) := by
  obtain ⟨-, hnone⟩ | ⟨row, -, hchoice, hrows⟩ := selectPivot_signed_iff.1 hselect
  · cases hnone
  have hm : t.constraintRows ≤ t.cells.height := hrows (by simp)
  have hpivotal := choice_pivotal hchoice
  refine ⟨t.exchange r c, hpivotal.pivot_eq hm, constraintRows_exchange t r c, ?_, ?_⟩
  · intro i hi
    rw [constraintRows_exchange] at hi
    exact rhs_exchange_nonneg hm hchoice hi (.inr (hrhs i hi))
  · intro hneg i hi
    rw [constraintRows_exchange] at hi
    have hzero := rhs_eq_zero_of_neg hchoice (hrhs r hpivotal.row) hneg
    exact rhs_exchange_of_zero (hi.trans_le hm) hpivotal.col hzero

/-- The costs are those of the last of two objective rows, and a negative entry is selected. -/
theorem rhs_nonneg_of_selectPivot_negative :
    let t : Tableau Rat :=
      { cells := Grid.ofFn 4 3 fun i j =>
          ([[-2, 1, 0], [1, 3, 5], [0, 0, 7], [3, -1, 2]][i]?.getD [])[j]?.getD 0
        basis := [3, 4]
        nonbasis := [1, 2]
        width_cells := rfl }
    (∀ i < t.constraintRows, 0 ≤ t.rhs i) ∧ t.selectPivot (-1) = .ok (some ⟨some 0, 0⟩) ∧
      t.cells.cell 0 0 < 0 ∧ ∃ t', t.pivot (0 : Nat) (0 : Nat) = (t', none) ∧ t'.basis = [1, 4] ∧
        (∀ i < t'.constraintRows, 0 ≤ t'.rhs i) ∧
        ∀ i < t'.constraintRows, t'.rhs i = t.rhs i := by
  intro t
  have hrhs : ∀ i < t.constraintRows, 0 ≤ t.rhs i := by decide +kernel
  have hselect : t.selectPivot (-1) = .ok (some ⟨some 0, 0⟩) := by decide +kernel
  have hneg : t.cells.cell 0 0 < 0 := by decide +kernel
  obtain ⟨t', hpivot, -, hnonneg, hsame⟩ := t.rhs_nonneg_of_selectPivot (-1) hrhs hselect
  have hbasis : (t.pivot (0 : Nat) (0 : Nat)).1.basis = [1, 4] := by decide +kernel
  rw [hpivot] at hbasis
  exact ⟨hrhs, hselect, hneg, t', hpivot, hbasis, hnonneg, hsame hneg⟩

end Tableau

end TwoPhase
