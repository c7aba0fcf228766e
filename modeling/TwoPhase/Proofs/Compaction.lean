import TwoPhase.Proofs.Equations

/-!
Compaction: the passage to the second phase drops the columns of large variables and all objective
rows but the last. It needs an objective row and no arithmetic. Over the rationals a dropped
variable that is zero leaves the equations of the other rows as they are.
-/
namespace TwoPhase

variable {α : Type}

namespace Tableau

def compact [Zero α] (t : Tableau α) (threshold : Int) : Tableau α where
  cells := Grid.ofFn (t.constraintRows + 1) ((t.keptCols threshold).length + 1) fun i j =>
    t.cells.cell (if i = t.constraintRows then t.cells.height - 1 else i)
      ((t.keptCols threshold ++ [t.rhsCol])[j]?.getD 0)
  basis := t.basis
  nonbasis := (t.keptCols threshold).map t.colVar
  width_cells := by simp

section Shape

variable [Zero α] (t : Tableau α) (threshold : Int)

theorem dropColumnsAbove_eq (h : t.constraintRows < t.cells.height) :
    t.dropColumnsAbove threshold = .ok (t.compact threshold) := by
  have h0 : ¬t.cells.height = 0 := by omega
  have h1 : ¬t.cells.height < t.constraintRows := by omega
  simp only [dropColumnsAbove, h0, h1, false_and, if_false, List.getElem?_toArray]
  rfl

@[simp] theorem constraintRows_compact :
    (t.compact threshold).constraintRows = t.constraintRows := rfl

@[simp] theorem basis_compact : (t.compact threshold).basis = t.basis := rfl

@[simp] theorem rowVar_compact (i : Nat) : (t.compact threshold).rowVar i = t.rowVar i := rfl

@[simp] theorem height_cells_compact :
    (t.compact threshold).cells.height = t.constraintRows + 1 := Grid.height_ofFn ..

theorem rhsCol_compact : (t.compact threshold).rhsCol = (t.keptCols threshold).length := by
  simp [rhsCol, compact]

theorem nonbasis_compact :
    (t.compact threshold).nonbasis = t.nonbasis.filter (· ≤ threshold) := by
  rw [← t.map_colVar_range, List.filter_map]
  rfl

variable {t threshold}

theorem cell_compact_rhs {i : Nat} (hi : i ≤ t.constraintRows) :
    (t.compact threshold).cells.cell i (t.compact threshold).rhsCol =
      t.cells.cell (if i = t.constraintRows then t.cells.height - 1 else i) t.rhsCol := by
  rw [rhsCol_compact, compact, Grid.cell_ofFn _ _ _ (by omega) (by omega)]
  simp

theorem cell_compact {i j : Nat} (hi : i ≤ t.constraintRows)
    (hj : j < (t.keptCols threshold).length) :
    (t.compact threshold).cells.cell i j =
      t.cells.cell (if i = t.constraintRows then t.cells.height - 1 else i)
        (t.keptCols threshold)[j] := by
  rw [compact, Grid.cell_ofFn _ _ _ (by omega) (by omega), List.getElem?_append_left hj,
    List.getElem?_eq_getElem hj]
  rfl

theorem colVar_compact {j : Nat} (hj : j < (t.keptCols threshold).length) :
    (t.compact threshold).colVar j = t.colVar (t.keptCols threshold)[j] := by
  simp [colVar, compact, hj]

theorem labels_compact (hb : ∀ k ∈ t.basis, k ≤ threshold) :
    (t.compact threshold).labels = t.labels.filter (· ≤ threshold) := by
  have hbasis : t.basis.filter (· ≤ threshold) = t.basis :=
    List.filter_eq_self.2 fun k hk => by simpa using hb k hk
  rw [labels, labels, List.filter_append, hbasis, nonbasis_compact, basis_compact]

end Shape

end Tableau

theorem filter_varRange (a b : Nat) :
    (varRange 1 (a + b)).filter (· ≤ (a : Int)) = varRange 1 a := by
  have hlow : (varRange 1 a).filter (· ≤ (a : Int)) = varRange 1 a :=
    List.filter_eq_self.2 fun k hk => by
      have := mem_varRange.1 hk
      simp only [decide_eq_true_eq]
      omega
  have hhigh : (varRange (1 + a) b).filter (· ≤ (a : Int)) = [] :=
    List.filter_eq_nil_iff.2 fun k hk => by
      have := mem_varRange.1 hk
      simp only [decide_eq_true_eq]
      omega
  rw [← varRange_append, List.filter_append, hlow, hhigh, List.append_nil]

namespace Tableau

/-- Once no variable above the threshold is basic, compaction keeps exactly the variables up to
it. -/
theorem labels_compact_perm [Zero α] {t : Tableau α} {a b : Nat}
    (h : t.labels.Perm (varRange 1 (a + b))) (hb : ∀ k ∈ t.basis, k ≤ (a : Int)) :
    (t.compact a).labels.Perm (varRange 1 a) := by
  rw [labels_compact hb, ← filter_varRange a b]
  exact h.filter _

end Tableau

section Rational

open Finset

theorem sum_range_getD {β : Type} (l : List β) (d : β) (f : β → Rat) :
    ∑ j ∈ range l.length, f (l[j]?.getD d) = (l.map f).sum := by
  induction l with
  | nil => simp
  | cons a l ih =>
    rw [List.length_cons, sum_range_succ', List.map_cons, List.sum_cons, ← ih, add_comm]
    simp

theorem sum_filter_range (n : Nat) (p : Nat → Bool) (f : Nat → Rat)
    (hf : ∀ j < n, p j = false → f j = 0) :
    (((List.range n).filter p).map f).sum = ∑ j ∈ range n, f j := by
  have hset : (List.range n).toFinset = range n := by
    ext
    simp
  rw [← List.sum_toFinset f (List.nodup_range.filter p), List.toFinset_filter, hset]
  refine sum_filter_of_ne fun j hj hne => ?_
  by_contra hp
  exact hne (hf j (mem_range.1 hj) (by simpa using hp))

namespace Tableau

variable {t : Tableau Rat} {threshold : Int} {v : Int → Rat}

theorem rowValue_compact (hv : ∀ k ∈ t.nonbasis, threshold < k → v k = 0) {i : Nat}
    (hi : i ≤ t.constraintRows) :
    (t.compact threshold).rowValue v i =
      t.rowValue v (if i = t.constraintRows then t.cells.height - 1 else i) := by
  rw [rowValue, rowValue, cell_compact_rhs hi, rhsCol_compact]
  congr 1
  set i' := if i = t.constraintRows then t.cells.height - 1 else i with hi'
  have hterm : ∀ j ∈ range (t.keptCols threshold).length,
      (t.compact threshold).cells.cell i j * v ((t.compact threshold).colVar j) =
        (fun k => t.cells.cell i' k * v (t.colVar k)) ((t.keptCols threshold)[j]?.getD 0) := by
    intro j hj
    have hj := mem_range.1 hj
    rw [cell_compact hi hj, colVar_compact hj, List.getElem?_eq_getElem hj]
    rfl
  rw [sum_congr rfl hterm,
    sum_range_getD (t.keptCols threshold) 0 fun k => t.cells.cell i' k * v (t.colVar k)]
  refine sum_filter_range t.rhsCol _ _ fun j hj hkept => ?_
  have hlt : threshold < t.colVar j := by simpa [colVar] using hkept
  rw [hv _ (colVar_mem hj) hlt, mul_zero]

theorem holds_compact (hv : ∀ k ∈ t.nonbasis, threshold < k → v k = 0) :
    (t.compact threshold).Holds v ↔ t.Holds v := by
  simp only [Holds, constraintRows_compact, rowVar_compact]
  refine forall₂_congr fun i hi => ?_
  rw [rowValue_compact hv hi.le, if_neg hi.ne]

end Tableau

end Rational

end TwoPhase
