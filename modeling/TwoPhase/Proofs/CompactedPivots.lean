import TwoPhase.Proofs.Run

/-!
Pivots before and after compaction. A pivot between two variables that compaction keeps may be made
on either side of it: the row stays where it is, and the column moves to the left by the dropped
columns before it. There has to be an objective row; nothing is assumed of the arithmetic or of the
number of dropped columns.
-/
namespace TwoPhase

theorem getElem?_filter_countP {β : Type} (p : β → Bool) {l : List β} {i : Nat} {b : β}
    (hi : l[i]? = some b) (hb : p b = true) : (l.filter p)[(l.take i).countP p]? = some b := by
  obtain ⟨hlt, rfl⟩ := List.getElem?_eq_some_iff.1 hi
  have hsplit : l.filter p = (l.take i).filter p ++ l[i] :: (l.drop (i + 1)).filter p := by
    rw [← List.filter_cons_of_pos hb, List.getElem_cons_drop, ← List.filter_append,
      List.take_append_drop]
  rw [hsplit, List.countP_eq_length_filter, List.getElem?_append_right le_rfl, Nat.sub_self]
  rfl

variable {α : Type}

namespace Tableau

section Kept

variable (t : Tableau α) (threshold : Int)

def keptPlace (q : Nat) : Nat := (t.nonbasis.take q).countP (· ≤ threshold)

def sourceRow (i : Nat) : Nat := if i = t.constraintRows then t.cells.height - 1 else i

def sourceCol (j : Nat) : Nat := (t.keptCols threshold ++ [t.rhsCol])[j]?.getD 0

variable {t threshold} {r q i j : Nat}

theorem sourceRow_lt (ht : t.HasObjective) (hi : i ≤ t.constraintRows) :
    t.sourceRow i < t.cells.height := by
  have ht : t.constraintRows < t.cells.height := ht
  rw [sourceRow]
  split <;> omega

theorem sourceRow_eq_iff (ht : t.HasObjective) (hr : r < t.constraintRows) :
    t.sourceRow i = r ↔ i = r := by
  have ht : t.constraintRows < t.cells.height := ht
  rw [sourceRow]
  split <;> omega

theorem keptCols_eq : t.keptCols threshold =
    (List.range t.rhsCol).filter fun j => decide (t.colVar j ≤ threshold) := rfl

theorem keptCols_nodup : (t.keptCols threshold ++ [t.rhsCol]).Nodup := by
  rw [List.nodup_append]
  refine ⟨List.nodup_range.filter _, List.nodup_singleton _, fun j hj k hk => ?_⟩
  have hlt := List.mem_range.1 (List.mem_of_mem_filter hj)
  rw [List.mem_singleton.1 hk]
  exact hlt.ne

theorem sourceCol_le (hj : j ≤ (t.keptCols threshold).length) :
    t.sourceCol threshold j ≤ t.rhsCol := by
  have hlt : j < (t.keptCols threshold ++ [t.rhsCol]).length := by
    simpa using Nat.lt_succ_of_le hj
  rw [sourceCol, List.getElem?_eq_getElem hlt, Option.getD_some]
  rcases List.mem_append.1 (List.getElem_mem hlt) with hmem | hmem
  · exact (List.mem_range.1 (List.mem_of_mem_filter hmem)).le
  · exact (List.mem_singleton.1 hmem).le

theorem getElem?_keptPlace (hq : q < t.rhsCol) (hkept : t.colVar q ≤ threshold) :
    (t.keptCols threshold)[t.keptPlace threshold q]? = some q := by
  have hplace : t.keptPlace threshold q =
      ((List.range t.rhsCol).take q).countP fun j => decide (t.colVar j ≤ threshold) := by
    rw [keptPlace, ← t.map_colVar_range, ← List.map_take, List.countP_map]
    rfl
  rw [hplace]
  exact getElem?_filter_countP _ (List.getElem?_range hq) (decide_eq_true hkept)

theorem keptPlace_lt (hq : q < t.rhsCol) (hkept : t.colVar q ≤ threshold) :
    t.keptPlace threshold q < (t.keptCols threshold).length :=
  (List.getElem?_eq_some_iff.1 (getElem?_keptPlace hq hkept)).1

/-- The columns of the compacted tableau come from different columns. -/
theorem sourceCol_eq_iff_of_getElem?
    (hq : (t.keptCols threshold ++ [t.rhsCol])[i]? = some q)
    (hj : j ≤ (t.keptCols threshold).length) : t.sourceCol threshold j = q ↔ j = i := by
  have hlt : j < (t.keptCols threshold ++ [t.rhsCol]).length := by
    simpa using Nat.lt_succ_of_le hj
  rw [sourceCol, List.getElem?_eq_getElem hlt, Option.getD_some]
  constructor
  · intro h
    refine (List.getElem?_inj hlt keptCols_nodup).1 ?_
    rw [hq, List.getElem?_eq_getElem hlt, h]
  · rintro rfl
    rw [List.getElem?_eq_getElem hlt] at hq
    exact Option.some.inj hq

theorem sourceCol_eq_iff (hq : q < t.rhsCol) (hkept : t.colVar q ≤ threshold)
    (hj : j ≤ (t.keptCols threshold).length) :
    t.sourceCol threshold j = q ↔ j = t.keptPlace threshold q := by
  refine sourceCol_eq_iff_of_getElem? ?_ hj
  rw [List.getElem?_append_left (keptPlace_lt hq hkept), getElem?_keptPlace hq hkept]

theorem sourceCol_eq_rhsCol_iff (hj : j ≤ (t.keptCols threshold).length) :
    t.sourceCol threshold j = t.rhsCol ↔ j = (t.keptCols threshold).length :=
  sourceCol_eq_iff_of_getElem? List.getElem?_concat_length hj

theorem cell_compact_source [Zero α] (hi : i ≤ t.constraintRows)
    (hj : j ≤ (t.keptCols threshold).length) :
    (t.compact threshold).cells.cell i j =
      t.cells.cell (t.sourceRow i) (t.sourceCol threshold j) :=
  Grid.cell_ofFn _ _ _ (by omega) (by omega)

end Kept

section Exchange

variable [Cell α] {t : Tableau α} {threshold : Int} {r q : Nat}

structure Kept (t : Tableau α) (threshold : Int) (r q : Nat) : Prop extends t.Pivotal r q where
  rowVar : t.rowVar r ≤ threshold
  colVar : t.colVar q ≤ threshold

theorem Kept.keptCols_exchange (h : t.Kept threshold r q) :
    (t.exchange r q).keptCols threshold = t.keptCols threshold := by
  rw [keptCols_eq, keptCols_eq, rhsCol_exchange]
  refine List.filter_congr fun j _ => ?_
  rw [t.colVar_exchange h.col]
  by_cases hjq : j = q
  · rw [if_pos hjq, hjq, decide_eq_true h.rowVar, decide_eq_true h.colVar]
  · rw [if_neg hjq]

theorem Kept.cells_compact_exchange (ht : t.HasObjective) (h : t.Kept threshold r q) :
    ((t.exchange r q).compact threshold).cells =
      ((t.compact threshold).exchange r (t.keptPlace threshold q)).cells := by
  have hplace := keptPlace_lt h.col h.colVar
  have hkept := h.keptCols_exchange
  refine Grid.ext_cell (by simp) (congrArg (fun cols => cols.length + 1) hkept) fun i j hi hj => ?_
  replace hi : i ≤ t.constraintRows := Nat.le_of_lt_succ (by simpa using hi)
  replace hj : j ≤ (t.keptCols threshold).length := hkept ▸ Nat.le_of_lt_succ hj
  have hrow : (t.exchange r q).sourceRow i = t.sourceRow i := by
    rw [sourceRow, sourceRow, constraintRows_exchange, height_cells_exchange]
  have hcol : (t.exchange r q).sourceCol threshold j = t.sourceCol threshold j := by
    rw [sourceCol, sourceCol, hkept, rhsCol_exchange]
  have hcell {i j : Nat} (hi : i ≤ t.constraintRows) (hj : j ≤ (t.keptCols threshold).length) :
      (t.compact threshold).cells.cell i j =
        t.cells.cell (t.sourceRow i) (t.sourceCol threshold j) := cell_compact_source hi hj
  rw [cell_compact_source (by simpa using hi) (by rwa [hkept]), hrow, hcol,
    t.cell_exchange r q (sourceRow_lt ht hi) (sourceCol_le hj),
    (t.compact threshold).cell_exchange r _ (by simpa using Nat.lt_succ_of_le hi)
      (by rwa [rhsCol_compact]), hcell hi hj, hcell hi hplace.le, hcell h.row.le hj,
    hcell h.row.le hplace.le, (sourceRow_eq_iff ht h.row).2 rfl,
    (sourceCol_eq_iff h.col h.colVar hplace.le).2 rfl]
  simp only [sourceRow_eq_iff ht h.row, sourceCol_eq_iff h.col h.colVar hj]

/-- A kept exchange before compaction is one after it. -/
theorem Kept.compact_exchange (ht : t.HasObjective) (h : t.Kept threshold r q) :
    (t.exchange r q).compact threshold =
      (t.compact threshold).exchange r (t.keptPlace threshold q) := by
  have hplace := getElem?_keptPlace h.col h.colVar
  obtain ⟨hlt, hget⟩ := List.getElem?_eq_some_iff.1 hplace
  refine Tableau.ext (h.cells_compact_exchange ht) ?_ ?_
  · change t.basis.set r (t.colVar q) = t.basis.set r ((t.compact threshold).colVar _)
    rw [colVar_compact hlt, hget]
  · change ((t.exchange r q).keptCols threshold).map (t.exchange r q).colVar =
      ((t.keptCols threshold).map t.colVar).set (t.keptPlace threshold q) (t.rowVar r)
    rw [h.keptCols_exchange]
    refine List.ext_getElem (by simp) fun j hj _ => ?_
    have hj : j < (t.keptCols threshold).length := by simpa using hj
    have hinj := sourceCol_eq_iff h.col h.colVar hj.le
    rw [sourceCol, List.getElem?_append_left hj, List.getElem?_eq_getElem hj,
      Option.getD_some] at hinj
    rw [List.getElem_map, List.getElem_set, t.colVar_exchange h.col]
    by_cases hplace : j = t.keptPlace threshold q
    · rw [if_pos (hinj.2 hplace), if_pos hplace.symm]
    · rw [if_neg (mt hinj.1 hplace), if_neg (Ne.symm hplace), List.getElem_map]

theorem Kept.compact_pivotal (ht : t.HasObjective) (h : t.Kept threshold r q) :
    (t.compact threshold).Pivotal r (t.keptPlace threshold q) where
  row := h.row
  col := (keptPlace_lt h.col h.colVar).trans_eq (rhsCol_compact ..).symm
  isZero := by
    have hplace := (keptPlace_lt h.col h.colVar).le
    rw [cell_compact_source h.row.le hplace, (sourceRow_eq_iff ht h.row).2 rfl,
      (sourceCol_eq_iff h.col h.colVar hplace).2 rfl]
    exact h.isZero

/-- If the variables of the pivot row and of the pivot column are kept, a pivot and then compaction
give the tableau that compaction gives and then the pivot, in the column that has as many kept
columns before it. -/
theorem dropColumnsAbove_pivot (t : Tableau α) (ht : t.HasObjective) (threshold : Int) {r q : Nat}
    (hr : r < t.constraintRows) (hq : q < t.rhsCol)
    (hcell : Cell.isZero (t.cells.cell r q) = false) (hbasis : t.rowVar r ≤ threshold)
    (hnonbasis : t.colVar q ≤ threshold) :
    ∃ pivoted compacted last, t.pivot r q = (pivoted, none) ∧
      pivoted.dropColumnsAbove threshold = .ok last ∧
      t.dropColumnsAbove threshold = .ok compacted ∧
      compacted.pivot r ((t.nonbasis.take q).countP (· ≤ threshold) : Nat) = (last, none) := by
  have h : t.Kept threshold r q := ⟨⟨hr, hq, hcell⟩, hbasis, hnonbasis⟩
  refine ⟨t.exchange r q, t.compact threshold, (t.exchange r q).compact threshold,
    h.pivot_eq (le_of_lt ht), ?_, dropColumnsAbove_eq t threshold ht, ?_⟩
  · exact dropColumnsAbove_eq _ _ (Solver.hasObjective_exchange ht r q)
  · rw [h.compact_exchange ht]
    exact (h.compact_pivotal ht).pivot_eq (le_of_lt (by simp))

/-- Two of the three columns before the pivot column are dropped, and one of two objective rows. -/
theorem dropColumnsAbove_pivot_after_dropped :
    let t : Tableau Rat :=
      { cells := Grid.ofFn 4 5 fun i j => (i + 2) * (j + 1) - 7
        basis := [3, 4]
        nonbasis := [5, 1, 6, 2]
        width_cells := rfl }
    t.HasObjective ∧ 1 < t.constraintRows ∧ 3 < t.rhsCol ∧
      Cell.isZero (t.cells.cell 1 3) = false ∧ t.rowVar 1 ≤ 4 ∧ t.colVar 3 ≤ 4 ∧
      ∃ pivoted compacted last, t.pivot (1 : Nat) (3 : Nat) = (pivoted, none) ∧
        pivoted.dropColumnsAbove 4 = .ok last ∧ t.dropColumnsAbove 4 = .ok compacted ∧
        compacted.pivot (1 : Nat) (1 : Nat) = (last, none) ∧
        compacted.nonbasis = [1, 2] ∧ last.nonbasis = [1, 4] := by
  intro t
  have ht : t.HasObjective := (by decide : 2 < 4)
  have hr : 1 < t.constraintRows := by decide
  have hq : 3 < t.rhsCol := by decide
  have hcell : Cell.isZero (t.cells.cell 1 3) = false := by decide +kernel
  have hbasis : t.rowVar 1 ≤ 4 := by decide
  have hnonbasis : t.colVar 3 ≤ 4 := by decide
  obtain ⟨pivoted, compacted, last, hpivot, hlast, hcompact, hlate⟩ :=
    t.dropColumnsAbove_pivot ht 4 hr hq hcell hbasis hnonbasis
  have hvars : (t.dropColumnsAbove 4).map nonbasis = .ok [1, 2] ∧
      ((t.pivot (1 : Nat) (3 : Nat)).1.dropColumnsAbove 4).map nonbasis = .ok [1, 4] := by
    decide +kernel
  rw [hpivot, hlast, hcompact] at hvars
  exact ⟨ht, hr, hq, hcell, hbasis, hnonbasis, pivoted, compacted, last, hpivot, hlast, hcompact,
    hlate, Except.ok.inj hvars.1, Except.ok.inj hvars.2⟩

end Exchange

end Tableau

end TwoPhase
