import Mathlib.Algebra.Order.BigOperators.Group.Finset
import TwoPhase.Proofs.RightHandSide

/-!
What the tableaus of a solve say of the program, over the rationals. Those of the first phase have
the equations of the first tableau; those of the second have them for values whose artificial
variables are zero. The helper row stands for the sum of the artificial variables and the last
row for the cost.
-/
namespace TwoPhase

open Finset

namespace Tableau

variable {t t' : Tableau Rat} {u v : Int → Rat} {c i : Nat}

theorem rowValue_zero (t : Tableau Rat) (i : Nat) : t.rowValue (fun _ => 0) i = t.rhs i := by
  simp [rowValue, rhs]

theorem colVar_inj (hn : t.labels.Nodup) {j : Nat} (hj : j < t.rhsCol) (hc : c < t.rhsCol) :
    t.colVar j = t.colVar c ↔ j = c := by
  have hn' := (List.nodup_append.1 hn).2.1
  have hj' : j < t.nonbasis.length := hj
  have hc' : c < t.nonbasis.length := hc
  rw [colVar, colVar, List.getElem?_eq_getElem hj', List.getElem?_eq_getElem hc']
  exact hn'.getElem_inj_iff

theorem rowValue_single (hn : t.labels.Nodup) (hc : c < t.rhsCol) (s : Rat) (i : Nat) :
    t.rowValue (fun k => if k = t.colVar c then s else 0) i =
      t.rhs i - t.cells.cell i c * s := by
  rw [rowValue, rhs, sum_eq_single c, if_pos rfl]
  · intro j hj hjc
    rw [if_neg (mt (colVar_inj hn (mem_range.1 hj) hc).1 hjc), mul_zero]
  · exact fun hnot => absurd (mem_range.2 hc) hnot

theorem basicValue_eq_point (t : Tableau Rat) : t.basicValue = t.point fun _ => 0 := by
  funext k
  rw [basicValue, point]
  cases t.basis.idxOf? k with
  | none => simp
  | some i => exact (rowValue_zero t i).symm

theorem basicValue_rowVar (hn : t.labels.Nodup) (hi : i < t.constraintRows) :
    t.basicValue (t.rowVar i) = t.rhs i := by
  rw [basicValue_eq_point, point_rowVar hn _ hi, rowValue_zero]

theorem rowValue_basicValue (hn : t.labels.Nodup) (i : Nat) :
    t.rowValue t.basicValue i = t.rhs i := by
  rw [basicValue_eq_point, rowValue_point hn, rowValue_zero]

theorem basicValue_nonneg (hn : t.labels.Nodup)
    (hrhs : ∀ i < t.constraintRows, 0 ≤ t.rhs i) (k : Int) : 0 ≤ t.basicValue k := by
  by_cases hk : k ∈ t.basis
  · obtain ⟨i, hi, rfl⟩ := exists_rowVar hk
    rw [basicValue_rowVar hn hi]
    exact hrhs i hi
  · rw [basicValue, List.idxOf?_eq_none_iff.2 hk]

/-- Where no cost is positive, no values without a negative one undercut the right-hand side. -/
theorem rhs_le_rowValue (hcost : ∀ j < t.rhsCol, t.cells.cell i j ≤ 0)
    (hv : ∀ k ∈ t.nonbasis, 0 ≤ v k) : t.rhs i ≤ t.rowValue v i := by
  have hsum : ∑ j ∈ range t.rhsCol, t.cells.cell i j * v (t.colVar j) ≤ 0 := by
    refine sum_nonpos fun j hj => ?_
    have hj := mem_range.1 hj
    exact mul_nonpos_of_nonpos_of_nonneg (hcost j hj) (hv _ (colVar_mem hj))
  rw [rowValue, rhs]
  linarith

theorem cost_nonpos (h : t.Halted none) {j : Nat} (hj : j < t.rhsCol) :
    t.cells.cell t.constraintRows j ≤ 0 := by
  have hnone : t.cells.entering t.constraintRows t.rhsCol = none := by
    simpa [Halted, choice] using h
  exact Grid.entering_eq_none_iff.1 hnone j hj

end Tableau

open Tableau

variable {p : LinearProgram Rat} {t : Tableau Rat} {v : Int → Rat}

theorem phaseOne_sameSystem (h : Exchanges (phaseOne p) t) : SameSystem (phaseOne p) t :=
  h.sameSystem (by simp)

theorem first_sameSystem (h : Reaches (phaseOne p) t) : SameSystem (phaseOne p) t :=
  phaseOne_sameSystem h.exchanges

theorem first_point (h : Reaches (phaseOne p) t) (u : Int → Rat) :
    (phaseOne p).Holds (t.point u) :=
  ((first_sameSystem h).holds _).1 (holds_point (first_labels_nodup h) u)

/-- The helper row stands for the sum of the artificial variables. -/
theorem first_helper (h : Reaches (phaseOne p) t) (hv : (phaseOne p).Holds v) :
    t.rowValue v t.constraintRows = ∑ k ∈ range p.equalityRows, v (p.threshold + 1 + k) := by
  rw [first_constraintRows h, (first_sameSystem h).rowValue v hv p.constraintRows (by simp)
    (by simp), helper_eq hv]

section Compaction

variable {t₁ : Tableau Rat} (hfirst : Exchanges (phaseOne p) t₁)
  (hsecond : Exchanges (t₁.compact p.threshold) t)
  (hv : ∀ k : Int, p.threshold < k → v k = 0)
include hfirst hsecond hv

theorem compact_holds : t.Holds v ↔ (phaseOne p).Holds v := by
  rw [(hsecond.sameSystem (by simp)).holds, holds_compact fun k _ hk => hv k hk,
    (phaseOne_sameSystem hfirst).holds]

theorem compact_price (hholds : (phaseOne p).Holds v) :
    t.rowValue v t.constraintRows = p.price (tabulate p.numCosts v) := by
  have hzero : ∀ k ∈ t₁.nonbasis, (p.threshold : Int) < k → v k = 0 := fun k _ hk => hv k hk
  have hfirst' := ((phaseOne_sameSystem hfirst).holds v).2 hholds
  have hcompact : (t₁.compact p.threshold).Holds v := (holds_compact hzero).2 hfirst'
  rw [hsecond.constraintRows,
    (hsecond.sameSystem (by simp)).rowValue v hcompact _ le_rfl (by simp),
    constraintRows_compact, rowValue_compact hzero le_rfl, if_pos rfl, exchanges_height hfirst,
    (phaseOne_sameSystem hfirst).rowValue v hholds _ (by simp) (by simp)]
  exact rowValue_phaseOne_cost p v

end Compaction

theorem second_holds (h : SecondState p t) (hv : ∀ k : Int, p.threshold < k → v k = 0) :
    t.Holds v ↔ (phaseOne p).Holds v := by
  obtain ⟨t₁, hfirst, -, -, hsecond⟩ := h
  exact compact_holds hfirst.exchanges hsecond.exchanges hv

theorem second_price (h : SecondState p t) (hv : ∀ k : Int, p.threshold < k → v k = 0)
    (hholds : (phaseOne p).Holds v) :
    t.rowValue v t.constraintRows = p.price (tabulate p.numCosts v) := by
  obtain ⟨t₁, hfirst, -, -, hsecond⟩ := h
  exact compact_price hfirst.exchanges hsecond.exchanges hv hholds

/-- Points of the second phase solve the first tableau without artificial variables. -/
theorem second_point (h : SecondState p t) (u : Int → Rat) :
    (phaseOne p).Holds (t.point u) ∧ ∀ k : Int, p.threshold < k → t.point u k = 0 := by
  have hzero : ∀ k : Int, p.threshold < k → t.point u k = 0 := by
    intro k hk
    refine point_of_not_mem u fun hmem => ?_
    have := ((mem_of_labels_perm (second_labels_perm h)).1 hmem).2
    omega
  exact ⟨(second_holds h hzero).1 (holds_point (second_labels_nodup h) u), hzero⟩

theorem second_basicValue (h : SecondState p t) :
    (phaseOne p).Holds t.basicValue ∧ ∀ k : Int, p.threshold < k → t.basicValue k = 0 := by
  rw [basicValue_eq_point]
  exact second_point h _

theorem second_equal (h : SecondState p t) :
    p.equal.image (tabulate p.numCosts t.basicValue) = p.equal.rhs := by
  obtain ⟨hholds, hzero⟩ := second_basicValue h
  exact (equal_iff hholds).2 fun i _ => hzero _ (by omega)

/-- Where no column improves, the objective is a lower bound on feasible points. -/
theorem objective_le_rowValue {count : Nat} {y : List Rat}
    (hperm : t.labels.Perm (varRange 1 count)) (hhalt : t.Halted none) (hy : p.Feasible y) :
    t.objective ≤ t.rowValue (p.extension y) t.constraintRows := by
  refine rhs_le_rowValue (fun j hj => cost_nonpos hhalt hj) fun k hk => ?_
  have hlabel := (mem_of_labels_perm hperm).1 (List.mem_append_right _ hk)
  exact (extension_of_feasible hy).1 k hlabel.1

/-- What is read off in the second phase is feasible exactly if no right-hand side is negative. -/
theorem second_feasible_iff (h : SecondState p t) :
    p.Feasible (tabulate p.numCosts t.basicValue) ↔
      ∀ i < p.constraintRows, 0 ≤ t.rhs i := by
  obtain ⟨hholds, hzero⟩ := second_basicValue h
  have hn := second_labels_nodup h
  rw [feasible_tabulate_iff hholds, ← h.constraintRows]
  constructor
  · rintro ⟨hnonneg, -⟩ i hi
    have hlabel : t.rowVar i ∈ t.labels := List.mem_append_left _ (rowVar_mem hi)
    have hmem := (mem_of_labels_perm (second_labels_perm h)).1 hlabel
    rw [← basicValue_rowVar hn hi]
    exact hnonneg _ hmem.1 hmem.2
  · intro hrhs
    exact ⟨fun k _ _ => basicValue_nonneg hn hrhs k, fun i _ => hzero _ (by omega)⟩

end TwoPhase
