import Mathlib.Algebra.BigOperators.Group.Finset.Sigma
import TwoPhase.Proofs.BasicSolution
import TwoPhase.Proofs.Course
import TwoPhase.Proofs.Equations

/-!
Feasible points of a program over the rationals, and the equations of the first tableau. A
solution of these equations is a point with its slacks and artificial variables, so the point is
feasible exactly if no variable is negative and the artificial variables are zero.
-/
namespace TwoPhase

open Finset Tableau

namespace Block

variable {n : Nat}

def dot (b : Block Rat n) (x : List Rat) (i : Nat) : Rat :=
  ∑ j ∈ range n, b.matrix.cell i j * x[j]?.getD 0

def image (b : Block Rat n) (x : List Rat) : List Rat :=
  (List.range b.matrix.height).map (b.dot x)

theorem rhs_getD (b : Block Rat n) {i : Nat} (hi : i < b.matrix.height) :
    b.rhs[i]?.getD 0 ∈ b.rhs := by
  rw [← b.length_rhs] at hi
  rw [List.getElem?_eq_getElem hi]
  exact List.getElem_mem hi

theorem exists_rhs_getD (b : Block Rat n) {a : Rat} (ha : a ∈ b.rhs) :
    ∃ i < b.matrix.height, b.rhs[i]?.getD 0 = a := by
  obtain ⟨i, hi, rfl⟩ := List.getElem_of_mem ha
  exact ⟨i, b.length_rhs ▸ hi, by simp [hi]⟩

theorem image_eq_rhs_iff (b : Block Rat n) (x : List Rat) :
    b.image x = b.rhs ↔ ∀ i < b.matrix.height, b.dot x i = b.rhs[i]?.getD 0 := by
  have hlen := b.length_rhs
  constructor
  · intro h i hi
    rw [← h, image]
    simp [hi]
  · intro h
    apply List.ext_getElem (by simp [image, hlen])
    intro i hi hi'
    have hi'' : i < b.matrix.height := by omega
    simpa [image, hi'] using h i hi''

theorem image_le_rhs_iff (b : Block Rat n) (x : List Rat) :
    List.Forall₂ (· ≤ ·) (b.image x) b.rhs ↔
      ∀ i < b.matrix.height, b.dot x i ≤ b.rhs[i]?.getD 0 := by
  have hlen := b.length_rhs
  rw [List.forall₂_iff_get]
  constructor
  · rintro ⟨-, h⟩ i hi
    have hi' : i < b.rhs.length := by omega
    simpa [image, hi'] using h i (by simpa [image] using hi) hi'
  · intro h
    refine ⟨by simp [image, hlen], ?_⟩
    intro i hi hi'
    have hi'' : i < b.matrix.height := by omega
    simpa [image, hi'] using h i hi''

end Block

namespace LinearProgram

/-- The cost of a point, without the offset. -/
def price (p : LinearProgram Rat) (x : List Rat) : Rat :=
  ∑ j ∈ range p.numCosts, p.cost[j]?.getD 0 * x[j]?.getD 0

def value (p : LinearProgram Rat) (x : List Rat) : Rat := p.price x + p.offset

structure Feasible (p : LinearProgram Rat) (x : List Rat) : Prop where
  length : x.length = p.numCosts
  nonneg : ∀ a ∈ x, 0 ≤ a
  upper : List.Forall₂ (· ≤ ·) (p.upper.image x) p.upper.rhs
  equal : p.equal.image x = p.equal.rhs

/-- What the inequalities leave free at a point. -/
def slacks (p : LinearProgram Rat) (x : List Rat) : List Rat :=
  (List.range p.inequalityRows).map fun i => p.upper.rhs[i]?.getD 0 - p.upper.dot x i

def IsOptimal (p : LinearProgram Rat) (x : List Rat) : Prop :=
  p.Feasible x ∧ ∀ y, p.Feasible y → p.value x ≤ p.value y

end LinearProgram

def Block.ofRows (n : Nat) (rows : List (List Rat × Rat)) : Block Rat n where
  matrix := Grid.ofFn rows.length n fun i j => ((rows[i]?.map Prod.fst).getD [])[j]?.getD 0
  rhs := rows.map Prod.snd
  width_matrix := rfl
  length_rhs := by simp

def LinearProgram.ofRows (c : Rat) (cs : List Rat) (upper equal : List (List Rat × Rat)) :
    LinearProgram Rat where
  cost := c :: cs
  upper := .ofRows _ upper
  equal := .ofRows _ equal
  offset := 0
  cost_ne_nil := List.cons_ne_nil c cs

def Setting.exact : Setting Rat (List (List Rat)) where
  key := Grid.toLists
  renderer := ⟨fun _ => "", fun _ _ => ""⟩

theorem length_tabulate {α : Type} (n : Nat) (u : Int → α) : (tabulate n u).length = n := by
  simp [tabulate]

theorem tabulate_getD (n : Nat) (u : Int → Rat) {j : Nat} (hj : j < n) :
    (tabulate n u)[j]?.getD 0 = u (j + 1) := by
  simp [tabulate, hj]

theorem Block.entry_sub_sum {n : Nat} (b : Block Rat n) (v : Int → Rat) (i : Nat) :
    b.entry i n - ∑ j ∈ range n, b.entry i j * v (j + 1) =
      b.rhs[i]?.getD 0 - b.dot (tabulate n v) i := by
  have hrhs : b.entry i n = b.rhs[i]?.getD 0 := if_pos rfl
  rw [hrhs, dot]
  congr 1
  refine sum_congr rfl fun j hj => ?_
  have hj := mem_range.1 hj
  rw [tabulate_getD n v hj, entry, if_neg (by omega)]

section FirstTableau

variable (p : LinearProgram Rat) (v : Int → Rat)

theorem cell_phaseOne {i j : Nat} (hi : i < p.constraintRows + 2) (hj : j ≤ p.numCosts) :
    (phaseOne p).cells.cell i j =
      if i < p.inequalityRows then p.upper.entry i j
      else if i < p.constraintRows then p.equal.entry (i - p.inequalityRows) j
      else if i = p.constraintRows then helperEntry p j
      else if j = p.numCosts then 0
      else -(p.cost[j]?.getD 0) :=
  Grid.cell_ofFn _ _ _ hi (by omega)

theorem cell_phaseOne_upper {i j : Nat} (hi : i < p.inequalityRows) (hj : j ≤ p.numCosts) :
    (phaseOne p).cells.cell i j = p.upper.entry i j := by
  have hm : i < p.constraintRows := Nat.lt_add_right _ hi
  rw [cell_phaseOne p (by omega) hj, if_pos hi]

theorem cell_phaseOne_equal {i j : Nat} (hi : i < p.equalityRows) (hj : j ≤ p.numCosts) :
    (phaseOne p).cells.cell (p.inequalityRows + i) j = p.equal.entry i j := by
  have hm : p.inequalityRows + i < p.constraintRows := Nat.add_lt_add_left hi _
  rw [cell_phaseOne p (by omega) hj, if_neg (by omega), if_pos hm, Nat.add_sub_cancel_left]

theorem cell_phaseOne_helper {j : Nat} (hj : j ≤ p.numCosts) :
    (phaseOne p).cells.cell p.constraintRows j = helperEntry p j := by
  have hm : p.inequalityRows ≤ p.constraintRows := Nat.le_add_right _ _
  rw [cell_phaseOne p (by omega) hj, if_neg (by omega), if_neg (by omega), if_pos rfl]

theorem cell_phaseOne_cost {j : Nat} (hj : j ≤ p.numCosts) :
    (phaseOne p).cells.cell (p.constraintRows + 1) j =
      if j = p.numCosts then 0 else -(p.cost[j]?.getD 0) := by
  have hm : p.inequalityRows ≤ p.constraintRows := Nat.le_add_right _ _
  rw [cell_phaseOne p (by omega) hj, if_neg (by omega), if_neg (by omega), if_neg (by omega)]

theorem rowVar_phaseOne {i : Nat} (hi : i < p.constraintRows) :
    (phaseOne p).rowVar i = p.numCosts + 1 + i := by
  simp [rowVar, phaseOne, varRange, hi]

theorem colVar_phaseOne {j : Nat} (hj : j < p.numCosts) :
    (phaseOne p).colVar j = j + 1 := by
  simp [colVar, phaseOne, varRange, hj, add_comm]

theorem rowValue_phaseOne (i : Nat) :
    (phaseOne p).rowValue v i = (phaseOne p).cells.cell i p.numCosts -
      ∑ j ∈ range p.numCosts, (phaseOne p).cells.cell i j * v (j + 1) := by
  rw [rowValue, rhsCol_phaseOne]
  congr 1
  refine sum_congr rfl fun j hj => ?_
  rw [colVar_phaseOne p (mem_range.1 hj)]

theorem rowValue_phaseOne_upper {i : Nat} (hi : i < p.inequalityRows) :
    (phaseOne p).rowValue v i =
      p.upper.rhs[i]?.getD 0 - p.upper.dot (tabulate p.numCosts v) i := by
  rw [rowValue_phaseOne, cell_phaseOne_upper p hi le_rfl,
    sum_congr rfl fun j hj => by rw [cell_phaseOne_upper p hi (mem_range.1 hj).le]]
  exact p.upper.entry_sub_sum v i

theorem rowValue_phaseOne_equal {i : Nat} (hi : i < p.equalityRows) :
    (phaseOne p).rowValue v (p.inequalityRows + i) =
      p.equal.rhs[i]?.getD 0 - p.equal.dot (tabulate p.numCosts v) i := by
  rw [rowValue_phaseOne, cell_phaseOne_equal p hi le_rfl,
    sum_congr rfl fun j hj => by rw [cell_phaseOne_equal p hi (mem_range.1 hj).le]]
  exact p.equal.entry_sub_sum v i

theorem rowValue_phaseOne_cost :
    (phaseOne p).rowValue v (p.constraintRows + 1) = p.price (tabulate p.numCosts v) := by
  rw [rowValue_phaseOne, cell_phaseOne_cost p le_rfl, if_pos rfl, zero_sub, ← sum_neg_distrib,
    LinearProgram.price]
  refine sum_congr rfl fun j hj => ?_
  have hj := mem_range.1 hj
  rw [cell_phaseOne_cost p hj.le, if_neg (by omega), tabulate_getD _ v hj]
  ring

theorem helperEntry_eq_sum (j : Nat) :
    helperEntry p j = ∑ k ∈ range p.equalityRows, p.equal.entry k j := by
  rw [helperEntry]
  induction p.equalityRows with
  | zero => rfl
  | succ n ih =>
    rw [List.range_succ, List.foldl_append, ih, sum_range_succ]
    rfl

theorem rowValue_phaseOne_helper :
    (phaseOne p).rowValue v p.constraintRows =
      ∑ k ∈ range p.equalityRows, (phaseOne p).rowValue v (p.inequalityRows + k) := by
  have hrow : ∀ k ∈ range p.equalityRows, (phaseOne p).rowValue v (p.inequalityRows + k) =
      p.equal.entry k p.numCosts - ∑ j ∈ range p.numCosts, p.equal.entry k j * v (j + 1) := by
    intro k hk
    rw [rowValue_phaseOne_equal p v (mem_range.1 hk)]
    exact (p.equal.entry_sub_sum v k).symm
  have hterm : ∀ j ∈ range p.numCosts, (phaseOne p).cells.cell p.constraintRows j * v (j + 1) =
      ∑ k ∈ range p.equalityRows, p.equal.entry k j * v (j + 1) := by
    intro j hj
    rw [cell_phaseOne_helper p (mem_range.1 hj).le, helperEntry_eq_sum, sum_mul]
  rw [rowValue_phaseOne, cell_phaseOne_helper p le_rfl, helperEntry_eq_sum,
    sum_congr rfl hterm, sum_comm, sum_congr rfl hrow, sum_sub_distrib]

end FirstTableau

section Points

variable {p : LinearProgram Rat} {v : Int → Rat}

/-- The first tableau defines the slacks and the artificial variables. -/
theorem holds_phaseOne_iff (p : LinearProgram Rat) (v : Int → Rat) :
    (phaseOne p).Holds v ↔
      (∀ i < p.inequalityRows, v (p.numCosts + 1 + i) =
        p.upper.rhs[i]?.getD 0 - p.upper.dot (tabulate p.numCosts v) i) ∧
      ∀ i < p.equalityRows, v (p.threshold + 1 + i) =
        p.equal.rhs[i]?.getD 0 - p.equal.dot (tabulate p.numCosts v) i := by
  have hlabel (i : Nat) :
      (p.threshold : Int) + 1 + i = p.numCosts + 1 + (p.inequalityRows + i : Nat) := by
    rw [LinearProgram.threshold]
    omega
  constructor
  · intro h
    refine ⟨fun i hi => ?_, fun i hi => ?_⟩
    · have hm : i < p.constraintRows := Nat.lt_add_right _ hi
      rw [← rowVar_phaseOne p hm, h i (by simpa using hm), rowValue_phaseOne_upper p v hi]
    · have hm : p.inequalityRows + i < p.constraintRows := Nat.add_lt_add_left hi _
      rw [hlabel, ← rowVar_phaseOne p hm, h _ (by simpa using hm), rowValue_phaseOne_equal p v hi]
  · rintro ⟨hupper, hequal⟩ i hi
    rw [constraintRows_phaseOne] at hi
    rw [rowVar_phaseOne p hi]
    by_cases hiu : i < p.inequalityRows
    · rw [hupper i hiu, rowValue_phaseOne_upper p v hiu]
    · obtain ⟨k, rfl⟩ := Nat.exists_eq_add_of_le (not_lt.1 hiu)
      have hk : k < p.equalityRows := Nat.lt_of_add_lt_add_left hi
      rw [← hlabel, hequal k hk, rowValue_phaseOne_equal p v hk]

theorem slack_eq (hv : (phaseOne p).Holds v) {i : Nat} (hi : i < p.inequalityRows) :
    v (p.numCosts + 1 + i) =
      p.upper.rhs[i]?.getD 0 - p.upper.dot (tabulate p.numCosts v) i :=
  ((holds_phaseOne_iff p v).1 hv).1 i hi

theorem append_slacks (hv : (phaseOne p).Holds v) :
    tabulate p.numCosts v ++ p.slacks (tabulate p.numCosts v) = tabulate p.threshold v := by
  have hslacks : p.slacks (tabulate p.numCosts v) =
      (List.range p.inequalityRows).map fun i : Nat => v (p.numCosts + 1 + i) :=
    List.map_congr_left fun i hi => (slack_eq hv (List.mem_range.1 hi)).symm
  rw [hslacks, tabulate, tabulate, LinearProgram.threshold, List.range_add, List.map_append,
    List.map_map]
  congr 1
  refine List.map_congr_left fun i _ => ?_
  rw [Function.comp_apply]
  congr 1
  omega

theorem artificial_eq (hv : (phaseOne p).Holds v) {i : Nat} (hi : i < p.equalityRows) :
    v (p.threshold + 1 + i) =
      p.equal.rhs[i]?.getD 0 - p.equal.dot (tabulate p.numCosts v) i :=
  ((holds_phaseOne_iff p v).1 hv).2 i hi

theorem helper_eq (hv : (phaseOne p).Holds v) :
    (phaseOne p).rowValue v p.constraintRows =
      ∑ k ∈ range p.equalityRows, v (p.threshold + 1 + k) := by
  rw [rowValue_phaseOne_helper]
  refine sum_congr rfl fun k hk => ?_
  have hk := mem_range.1 hk
  rw [rowValue_phaseOne_equal p v hk, artificial_eq hv hk]

theorem nonneg_tabulate_iff (n : Nat) :
    (∀ a ∈ tabulate n v, 0 ≤ a) ↔ ∀ k : Int, 1 ≤ k → k ≤ n → 0 ≤ v k := by
  simp only [tabulate, List.mem_map, List.mem_range, forall_exists_index, and_imp,
    forall_apply_eq_imp_iff₂]
  constructor
  · intro h k hk hkn
    have := h (k - 1).toNat (by omega)
    rwa [show ((k - 1).toNat : Int) + 1 = k by omega] at this
  · intro h j hj
    exact h _ (by omega) (by omega)

theorem upper_iff (hv : (phaseOne p).Holds v) :
    List.Forall₂ (· ≤ ·) (p.upper.image (tabulate p.numCosts v)) p.upper.rhs ↔
      ∀ k : Int, p.numCosts < k → k ≤ p.threshold → 0 ≤ v k := by
  rw [Block.image_le_rhs_iff]
  constructor
  · intro h k hk hkn
    have hi : (k - p.numCosts - 1).toNat < p.inequalityRows := by
      rw [LinearProgram.threshold] at hkn
      omega
    have hs := slack_eq hv hi
    rw [show (p.numCosts : Int) + 1 + (k - p.numCosts - 1).toNat = k by omega] at hs
    rw [hs, sub_nonneg]
    exact h _ hi
  · intro h i hi
    have hi : i < p.inequalityRows := hi
    rw [← sub_nonneg, ← slack_eq hv hi]
    exact h _ (by omega) (by rw [LinearProgram.threshold]; omega)

theorem equal_iff (hv : (phaseOne p).Holds v) :
    p.equal.image (tabulate p.numCosts v) = p.equal.rhs ↔
      ∀ i < p.equalityRows, v (p.threshold + 1 + i) = 0 := by
  rw [Block.image_eq_rhs_iff]
  refine forall₂_congr fun i hi => ?_
  rw [artificial_eq hv hi, sub_eq_zero, eq_comm]

theorem feasible_tabulate_iff (hv : (phaseOne p).Holds v) :
    p.Feasible (tabulate p.numCosts v) ↔
      (∀ k : Int, 1 ≤ k → k ≤ p.threshold → 0 ≤ v k) ∧
        ∀ i < p.equalityRows, v (p.threshold + 1 + i) = 0 := by
  constructor
  · intro h
    refine ⟨fun k hk hkt => ?_, (equal_iff hv).1 h.equal⟩
    by_cases hkn : k ≤ p.numCosts
    · exact (nonneg_tabulate_iff _).1 h.nonneg k hk hkn
    · exact (upper_iff hv).1 h.upper k (by omega) hkt
  · rintro ⟨hnonneg, hzero⟩
    have hle : (p.numCosts : Int) ≤ p.threshold := by
      rw [LinearProgram.threshold]
      omega
    exact
      { length := length_tabulate _ _
        nonneg := (nonneg_tabulate_iff _).2 fun k hk hkn => hnonneg k hk (by omega)
        upper := (upper_iff hv).2 fun k hk hkt => hnonneg k (by omega) hkt
        equal := (equal_iff hv).2 hzero }

def LinearProgram.extension (p : LinearProgram Rat) (x : List Rat) : Int → Rat :=
  (phaseOne p).point fun k => x[(k - 1).toNat]?.getD 0

theorem nodup_labels_phaseOne (p : LinearProgram Rat) : (phaseOne p).labels.Nodup :=
  nodup_of_labels_perm (labels_phaseOne_perm p)

theorem holds_extension (p : LinearProgram Rat) (x : List Rat) :
    (phaseOne p).Holds (p.extension x) := holds_point (nodup_labels_phaseOne p) _

theorem tabulate_extension {x : List Rat} (hx : x.length = p.numCosts) :
    tabulate p.numCosts (p.extension x) = x := by
  apply List.ext_getElem (by simp [tabulate, hx])
  intro j hj hj'
  have hjn : j < p.numCosts := by omega
  have hpoint := point_colVar (nodup_labels_phaseOne p)
    (fun k => x[(k - 1).toNat]?.getD 0) (j := j) (by simpa using hjn)
  rw [colVar_phaseOne p hjn] at hpoint
  simp only [tabulate, List.getElem_map, List.getElem_range, LinearProgram.extension, hpoint]
  simp [hj']

theorem extension_of_lt (p : LinearProgram Rat) (x : List Rat) {k : Int}
    (hk : p.threshold + p.equalityRows < k) : p.extension x k = 0 := by
  refine point_of_not_mem _ fun hmem => ?_
  have hperm := labels_phaseOne_perm p
  have := ((mem_of_labels_perm hperm).1 hmem).2
  rw [LinearProgram.constraintRows] at this
  rw [LinearProgram.threshold] at hk
  omega

theorem LinearProgram.exists_artificial (p : LinearProgram Rat) {k : Int} (hk : p.threshold < k)
    (hkm : k ≤ p.threshold + p.equalityRows) :
    ∃ i < p.equalityRows, (p.threshold : Int) + 1 + i = k :=
  ⟨(k - p.threshold - 1).toNat, by omega, by omega⟩

/-- In a feasible extension the artificial variables are zero and no variable is negative. -/
theorem extension_of_feasible {y : List Rat} (hy : p.Feasible y) :
    (∀ k : Int, 1 ≤ k → 0 ≤ p.extension y k) ∧
      ∀ k : Int, p.threshold < k → p.extension y k = 0 := by
  have hfeas := (feasible_tabulate_iff (holds_extension p y)).1
    (by rwa [tabulate_extension hy.length])
  have hzero : ∀ k : Int, p.threshold < k → p.extension y k = 0 := by
    intro k hk
    by_cases hkm : k ≤ p.threshold + p.equalityRows
    · obtain ⟨i, hi, rfl⟩ := p.exists_artificial hk hkm
      exact hfeas.2 i hi
    · exact extension_of_lt p y (by omega)
  refine ⟨fun k hk => ?_, hzero⟩
  by_cases hkt : k ≤ p.threshold
  · exact hfeas.1 k hk hkt
  · exact (hzero k (by omega)).ge

end Points

end TwoPhase
