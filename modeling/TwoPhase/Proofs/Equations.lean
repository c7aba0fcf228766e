import Mathlib.Algebra.BigOperators.Group.Finset.Basic
import Mathlib.Algebra.BigOperators.Ring.Finset
import Mathlib.Algebra.Order.Field.Rat
import Mathlib.Tactic.FieldSimp
import Mathlib.Tactic.Linarith
import Mathlib.Tactic.Ring
import TwoPhase.Proofs.Exchange

/-!
A tableau over the rationals as a system of equations: each row gives its owner as a function of
the variables of the columns. An exchange at a nonzero cell keeps the solutions, and on them it
keeps what the objective rows give. The variables of the columns are free, so every choice of
them extends to one solution.
-/
namespace TwoPhase

open Finset

namespace Tableau

variable {t t' t'' : Tableau Rat} {u v : Int → Rat} {r c i : Nat}

def rowValue (t : Tableau Rat) (v : Int → Rat) (i : Nat) : Rat :=
  t.cells.cell i t.rhsCol - ∑ j ∈ range t.rhsCol, t.cells.cell i j * v (t.colVar j)

def Holds (t : Tableau Rat) (v : Int → Rat) : Prop :=
  ∀ i < t.constraintRows, v (t.rowVar i) = t.rowValue v i

theorem rowValue_congr (t : Tableau Rat) (h : ∀ j < t.rhsCol, u (t.colVar j) = v (t.colVar j))
    (i : Nat) : t.rowValue u i = t.rowValue v i := by
  rw [rowValue, rowValue]
  congr 1
  exact sum_congr rfl fun j hj => by rw [h j (mem_range.1 hj)]

theorem rowValue_split (t : Tableau Rat) (v : Int → Rat) (i : Nat) (hc : c < t.rhsCol) :
    t.rowValue v i = t.cells.cell i t.rhsCol - (t.cells.cell i c * v (t.colVar c) +
      ∑ j ∈ (range t.rhsCol).erase c, t.cells.cell i j * v (t.colVar j)) := by
  rw [rowValue, add_sum_erase _ (fun j => t.cells.cell i j * v (t.colVar j)) (mem_range.2 hc)]

theorem sum_erase_exchange (t : Tableau Rat) (hc : c < t.rhsCol) (v : Int → Rat) {a b : Rat}
    (h : ∀ j < t.rhsCol, j ≠ c →
      (t.exchange r c).cells.cell i j = a * t.cells.cell i j - b * t.cells.cell r j) :
    ∑ j ∈ (range t.rhsCol).erase c,
        (t.exchange r c).cells.cell i j * v ((t.exchange r c).colVar j) =
      a * (∑ j ∈ (range t.rhsCol).erase c, t.cells.cell i j * v (t.colVar j)) -
        b * ∑ j ∈ (range t.rhsCol).erase c, t.cells.cell r j * v (t.colVar j) := by
  rw [mul_sum, mul_sum, ← sum_sub_distrib]
  refine sum_congr rfl fun j hj => ?_
  obtain ⟨hjc, hj⟩ := mem_erase.1 hj
  rw [h j (mem_range.1 hj) hjc, t.colVar_exchange hc, if_neg hjc]
  ring

/-- In the other rows the exchange adds a multiple of the defect of the pivot row. -/
theorem rowValue_exchange_of_ne (t : Tableau Rat) (hc : c < t.rhsCol)
    (hp : t.cells.cell r c ≠ 0) (hi : i < t.cells.height) (hne : i ≠ r) (v : Int → Rat) :
    (t.exchange r c).rowValue v i = t.rowValue v i +
      t.cells.cell i c / t.cells.cell r c * (v (t.rowVar r) - t.rowValue v r) := by
  have hcell : ∀ j ≤ t.rhsCol, j ≠ c → (t.exchange r c).cells.cell i j =
      1 * t.cells.cell i j - t.cells.cell i c / t.cells.cell r c * t.cells.cell r j := by
    intro j hj hjc
    rw [t.cell_exchange r c hi hj, if_neg hne, if_neg hjc]
    ring
  rw [rowValue_split _ v i (show c < (t.exchange r c).rhsCol by simpa), rhsCol_exchange,
    sum_erase_exchange t hc v fun j hj => hcell j hj.le, hcell _ le_rfl (by omega),
    t.cell_exchange r c hi hc.le, if_neg hne, if_pos rfl, t.colVar_exchange hc, if_pos rfl,
    rowValue_split t v i hc, rowValue_split t v r hc]
  field_simp
  ring

/-- The pivot row is solved for the entering variable. -/
theorem rowValue_exchange_self (t : Tableau Rat) (hr : r < t.cells.height) (hc : c < t.rhsCol)
    (hp : t.cells.cell r c ≠ 0) (v : Int → Rat) :
    (t.exchange r c).rowValue v r = v (t.colVar c) +
      (t.rowValue v r - v (t.rowVar r)) / t.cells.cell r c := by
  have hcell : ∀ j ≤ t.rhsCol, j ≠ c → (t.exchange r c).cells.cell r j =
      1 / t.cells.cell r c * t.cells.cell r j - 0 * t.cells.cell r j := by
    intro j hj hjc
    rw [t.cell_exchange r c hr hj, if_pos rfl, if_neg hjc]
    ring
  rw [rowValue_split _ v r (show c < (t.exchange r c).rhsCol by simpa), rhsCol_exchange,
    sum_erase_exchange t hc v fun j hj => hcell j hj.le, hcell _ le_rfl (by omega),
    t.cell_exchange r c hr hc.le, if_pos rfl, if_pos rfl, t.colVar_exchange hc, if_pos rfl,
    rowValue_split t v r hc]
  field_simp
  ring

/-- Two tableaus state the same equations, and on their solutions the objective rows agree. -/
structure SameSystem (t t' : Tableau Rat) : Prop where
  constraintRows : t'.constraintRows = t.constraintRows
  height : t'.cells.height = t.cells.height
  holds : ∀ v, t'.Holds v ↔ t.Holds v
  rowValue : ∀ v, t.Holds v → ∀ i, t.constraintRows ≤ i → i < t.cells.height →
    t'.rowValue v i = t.rowValue v i

theorem SameSystem.refl (t : Tableau Rat) : SameSystem t t :=
  ⟨rfl, rfl, fun _ => Iff.rfl, fun _ _ _ _ _ => rfl⟩

theorem SameSystem.trans (h : SameSystem t t') (h' : SameSystem t' t'') : SameSystem t t'' where
  constraintRows := h'.constraintRows.trans h.constraintRows
  height := h'.height.trans h.height
  holds v := (h'.holds v).trans (h.holds v)
  rowValue v hv i hi hi' := by
    have hv' := (h.holds v).2 hv
    rw [h'.rowValue v hv' i (by rw [h.constraintRows]; exact hi) (by rw [h.height]; exact hi'),
      h.rowValue v hv i hi hi']

theorem holds_exchange (t : Tableau Rat) (hm : t.constraintRows ≤ t.cells.height)
    (hr : r < t.constraintRows) (hc : c < t.rhsCol) (hp : t.cells.cell r c ≠ 0)
    (v : Int → Rat) : (t.exchange r c).Holds v ↔ t.Holds v := by
  have hself : v ((t.exchange r c).rowVar r) = (t.exchange r c).rowValue v r ↔
      v (t.rowVar r) = t.rowValue v r := by
    rw [t.rowVar_exchange hr, if_pos rfl, rowValue_exchange_self t (by omega) hc hp,
      left_eq_add, div_eq_zero_iff, or_iff_left hp, sub_eq_zero, eq_comm]
  -- once the pivot row holds, the other rows do not change
  have hother (hpiv : v (t.rowVar r) = t.rowValue v r) (i : Nat) (hi : i < t.constraintRows)
      (hne : i ≠ r) : v ((t.exchange r c).rowVar i) = (t.exchange r c).rowValue v i ↔
      v (t.rowVar i) = t.rowValue v i := by
    rw [t.rowVar_exchange hr, if_neg hne,
      rowValue_exchange_of_ne t hc hp (by omega) hne, hpiv, sub_self, mul_zero, add_zero]
  constructor
  · intro h i hi
    have hpiv := hself.1 (h r (by simpa using hr))
    by_cases hne : i = r
    · rwa [hne]
    · exact (hother hpiv i hi hne).1 (h i (by simpa using hi))
  · intro h i hi
    rw [constraintRows_exchange] at hi
    by_cases hne : i = r
    · rw [hne]
      exact hself.2 (h r hr)
    · exact (hother (h r hr) i hi hne).2 (h i hi)

theorem sameSystem_exchange (t : Tableau Rat) (hm : t.constraintRows ≤ t.cells.height)
    (hr : r < t.constraintRows) (hc : c < t.rhsCol) (hp : t.cells.cell r c ≠ 0) :
    SameSystem t (t.exchange r c) where
  constraintRows := constraintRows_exchange t r c
  height := height_cells_exchange t r c
  holds := holds_exchange t hm hr hc hp
  rowValue v hv i hi hi' := by
    rw [rowValue_exchange_of_ne t hc hp hi' (by omega), hv r hr, sub_self, mul_zero, add_zero]

theorem isZero_eq_false_iff {q : Rat} : Cell.isZero q = false ↔ q ≠ 0 := by
  simp [Cell.isZero]

theorem Exchanges.sameSystem (hm : t.constraintRows ≤ t.cells.height) (h : Exchanges t t') :
    SameSystem t t' := by
  induction h with
  | refl => exact .refl t
  | @tail t₁ t₂ hreach hstep ih =>
    obtain ⟨r, c, hpivotal, rfl⟩ := hstep
    have hm' : t₁.constraintRows ≤ t₁.cells.height := by
      rw [Exchanges.constraintRows hreach, Exchanges.height hreach]
      exact hm
    have hp := isZero_eq_false_iff.1 hpivotal.isZero
    exact ih.trans (sameSystem_exchange t₁ hm' hpivotal.row hpivotal.col hp)

def point (t : Tableau Rat) (u : Int → Rat) (k : Int) : Rat :=
  match t.basis.idxOf? k with
  | some i => t.rowValue u i
  | none => if k ∈ t.nonbasis then u k else 0

theorem idxOf?_rowVar (hn : t.basis.Nodup) (hi : i < t.constraintRows) :
    t.basis.idxOf? (t.rowVar i) = some i := by
  have hi' : i < t.basis.length := hi
  rw [List.idxOf?_eq_some_iff]
  refine ⟨hi', by simp [rowVar, hi'], ?_⟩
  intro j hj he
  have := (List.Nodup.getElem_inj_iff hn).1 (by simpa [rowVar, hi'] using he)
  omega

theorem point_rowVar (hn : t.labels.Nodup) (u : Int → Rat) (hi : i < t.constraintRows) :
    t.point u (t.rowVar i) = t.rowValue u i := by
  rw [point, idxOf?_rowVar (List.nodup_append.1 hn).1 hi]

theorem point_colVar (hn : t.labels.Nodup) (u : Int → Rat) {j : Nat} (hj : j < t.rhsCol) :
    t.point u (t.colVar j) = u (t.colVar j) := by
  have hmem := colVar_mem hj
  have hb : t.basis.idxOf? (t.colVar j) = none := by
    rw [List.idxOf?_eq_none_iff]
    exact fun h => (List.nodup_append.1 hn).2.2 _ h _ hmem rfl
  rw [point, hb]
  exact if_pos hmem

theorem point_of_not_mem (u : Int → Rat) {k : Int} (hk : k ∉ t.labels) : t.point u k = 0 := by
  rw [labels, List.mem_append, not_or] at hk
  rw [point, List.idxOf?_eq_none_iff.2 hk.1]
  exact if_neg hk.2

theorem rowValue_point (hn : t.labels.Nodup) (u : Int → Rat) (i : Nat) :
    t.rowValue (t.point u) i = t.rowValue u i :=
  t.rowValue_congr (fun _ hj => point_colVar hn u hj) i

theorem holds_point (hn : t.labels.Nodup) (u : Int → Rat) : t.Holds (t.point u) := by
  intro i hi
  rw [point_rowVar hn u hi, rowValue_point hn]

end Tableau

end TwoPhase
