import Mathlib.Data.List.OfFn
import Mathlib.Data.Matrix.Basic
import TwoPhase.Matrix
import TwoPhase.Proofs.Elimination

/-!
Matrices of fractions in the forms in which they can be given: as arrays of loosely typed cells, of
any shape, and as nested lists. A nested list has the shape of its rows, so a matrix without rows
can only be given as an array. What a run of row reduction gives is that of its grid.
-/
namespace TwoPhase

def rowLists {α : Type} {h w : Nat} (a : Matrix (Fin h) (Fin w) α) : List (List α) :=
  List.ofFn fun i => List.ofFn (a i)

namespace Grid

theorem toLists_eq_rowLists {α : Type} [Zero α] {g : Grid α} {h w : Nat} (hh : g.height = h)
    (hw : g.width = w) : g.toLists = rowLists (g.matrix h w) := by
  subst hh hw
  refine List.ext_getElem (by simp [toLists, rowLists, height]) fun i hi _ => ?_
  have hi' : i < g.rows.size := by simpa [toLists] using hi
  have hrow : g.rows[i].size = g.width := g.size_row _ (Array.getElem_mem hi')
  refine List.ext_getElem (by simp [toLists, rowLists, hrow]) fun j hj _ => ?_
  have hj' : j < g.rows[i].size := by simpa [toLists] using hj
  simp [toLists, rowLists, matrix_apply, cell, cell?_eq_getElem g hi' hj']

theorem matrix_map {α β : Type} [Zero α] [Zero β] {g : Grid α} {h w : Nat} (hh : g.height = h)
    (hw : g.width = w) (f : α → β) : (g.map f).matrix h w = (g.matrix h w).map f := by
  ext i j
  exact cell_map (hh ▸ i.isLt) (hw ▸ j.isLt)

def ofMatrix {α : Type} [Zero α] {h w : Nat} (a : Matrix (Fin h) (Fin w) α) : Grid α :=
  ofFn h w fun i j => if hi : i < h then if hj : j < w then a ⟨i, hi⟩ ⟨j, hj⟩ else 0 else 0

theorem height_ofMatrix {α : Type} [Zero α] {h w : Nat} (a : Matrix (Fin h) (Fin w) α) :
    (ofMatrix a).height = h :=
  height_ofFn ..

theorem matrix_ofMatrix {α : Type} [Zero α] {h w : Nat} (a : Matrix (Fin h) (Fin w) α) :
    (ofMatrix a).matrix h w = a := by
  ext i j
  rw [matrix_apply, ofMatrix, cell_ofFn _ _ _ i.isLt j.isLt, dif_pos i.isLt, dif_pos j.isLt]

theorem ofMatrix_matrix {α : Type} [Zero α] {g : Grid α} {h w : Nat} (hh : g.height = h)
    (hw : g.width = w) : ofMatrix (g.matrix h w) = g := by
  subst hh hw
  refine (ofFn_congr fun i hi j hj => ?_).trans g.ofFn_cell
  rw [dif_pos hi, dif_pos hj]
  rfl

theorem ofMatrix_map {α β : Type} [Zero α] [Zero β] {h w : Nat} (a : Matrix (Fin h) (Fin w) α)
    (f : α → β) : ofMatrix (a.map f) = (ofMatrix a).map f := by
  rw [ofMatrix, ofMatrix, map_ofFn]
  refine ofFn_congr fun i hi j hj => ?_
  simp only [dif_pos hi, dif_pos hj, Matrix.map_apply]

theorem toLists_map {α β : Type} [Zero α] [Zero β] {g : Grid α} {h w : Nat} (hh : g.height = h)
    (hw : g.width = w) (f : α → β) : (g.map f).toLists = rowLists ((g.matrix h w).map f) := by
  rw [toLists_eq_rowLists ((height_map f g).trans hh) hw, matrix_map hh hw]

end Grid

namespace Tensor

variable {α β : Type} {h w : Nat}

def ofMatrix (a : Matrix (Fin h) (Fin w) α) : Tensor α where
  shape := [h, w]
  entries := Array.ofFn fun k : Fin (h * w) => a k.divNat k.modNat
  size_entries := by simp

theorem index_lt (i : Fin h) (j : Fin w) : (i : Nat) * w + j < h * w :=
  calc (i : Nat) * w + j < i * w + w := Nat.add_lt_add_left j.isLt _
    _ = (i + 1) * w := (Nat.succ_mul i w).symm
    _ ≤ h * w := Nat.mul_le_mul_right w i.isLt

theorem divNat_index (i : Fin h) (j : Fin w) :
    Fin.divNat ⟨(i : Nat) * w + j, index_lt i j⟩ = i := by
  ext
  simp [Fin.divNat, Nat.add_comm, Nat.add_mul_div_right, j.pos]

theorem modNat_index (i : Fin h) (j : Fin w) :
    Fin.modNat ⟨(i : Nat) * w + j, index_lt i j⟩ = j := by
  ext
  simp [Fin.modNat, Nat.mod_eq_of_lt]

theorem getElem?_ofMatrix (a : Matrix (Fin h) (Fin w) α) (i : Fin h) (j : Fin w) :
    (ofMatrix a).entries[(i : Nat) * w + j]? = some (a i j) := by
  rw [Array.getElem?_eq_some_iff]
  refine ⟨by simpa [ofMatrix] using index_lt i j, ?_⟩
  simp only [ofMatrix, Array.getElem_ofFn, divNat_index, modNat_index]

theorem toList_ofMatrix (a : Matrix (Fin h) (Fin w) α) :
    (ofMatrix a).entries.toList = (rowLists a).flatten := by
  rw [ofMatrix, Array.toList_ofFn, List.ofFn_mul, rowLists]
  simp only [divNat_index, modNat_index]

theorem toGrid?_ofMatrix [Zero α] [Zero β] (a : Matrix (Fin h) (Fin w) α) (f : α → β) :
    (ofMatrix (a.map f)).toGrid? = some ((Grid.ofMatrix a).map f) := by
  rw [Grid.ofMatrix, Grid.map_ofFn, toGrid?]
  refine congrArg some (Grid.ofFn_congr fun i hi j hj => ?_)
  rw [getElem?_ofMatrix (a.map f) ⟨i, hi⟩ ⟨j, hj⟩, dif_pos hi, dif_pos hj]
  rfl

theorem reshape?_eq_some (t : Tensor α) {shape : List Nat}
    (hsize : t.entries.size = shape.foldr (· * ·) 1) :
    t.reshape? shape = some ⟨shape, t.entries, hsize⟩ :=
  dif_pos hsize

/-- Arrays of one shape, one under another, are the array of all their entries. -/
theorem stack_eq_ok {parts : List (Tensor α)} {t : Tensor α} {shape : List Nat}
    (hparts : parts ≠ []) (hshape : ∀ p ∈ parts, p.shape = shape)
    (ht : t.shape = parts.length :: shape)
    (hentries : t.entries.toList = parts.flatMap (·.entries.toList)) : stack parts = .ok t := by
  cases parts with
  | nil => exact absurd rfl hparts
  | cons first rest =>
    have hfirst := hshape first List.mem_cons_self
    have hall : ((first :: rest).all fun p => decide (p.shape = first.shape)) = true :=
      List.all_eq_true.2 fun p hp => decide_eq_true ((hshape p hp).trans hfirst.symm)
    obtain ⟨tshape, tentries, hsize⟩ := t
    obtain rfl : tshape = (first :: rest).length :: first.shape := hfirst ▸ ht
    have harray : tentries = ((first :: rest).flatMap (·.entries.toList)).toArray := by
      rw [← hentries]
    subst harray
    rw [stack, if_pos hall]
    exact congrArg (Option.elim · _ _) (reshape?_eq_some (ofList _) hsize)

end Tensor

namespace Value

theorem nest_ofMatrix {h w : Nat} (a : Matrix (Fin h) (Fin w) Value) :
    nest [h, w] (Tensor.ofMatrix a).entries.toList = .list ((rowLists a).map .list) := by
  simp only [nest, List.foldr, Nat.mul_one, rowLists, List.map_ofFn]
  congr 1
  refine List.ext_getElem (by simp) fun i hi _ => ?_
  rw [List.length_map, List.length_range] at hi
  simp only [List.getElem_map, List.getElem_range, List.getElem_ofFn, Function.comp_apply]
  congr 1
  refine List.ext_getElem (by simp) fun j hj _ => ?_
  rw [List.length_map, List.length_range] at hj
  have hcell := Tensor.getElem?_ofMatrix a ⟨i, hi⟩ ⟨j, hj⟩
  simp [List.head?_eq_getElem?, hj, hcell]

theorem listCells_map {β : Type} (f : β → Value) (t : β → Tensor Value) {l : List β}
    (h : ∀ b ∈ l, (f b).cells = .ok (t b)) : listCells (l.map f) = .ok (l.map t) := by
  induction l with
  | nil => rfl
  | cons b l ih =>
    rw [List.map_cons, listCells, h b List.mem_cons_self,
      ih fun c hc => h c (List.mem_cons_of_mem b hc)]
    rfl

theorem cells_row {row : List Value} (hrow : row ≠ [])
    (hcells : ∀ v ∈ row, v.cells = .ok (.scalar v)) :
    (Value.list row).cells = .ok (Tensor.ofList row) := by
  have hparts := listCells_map id Tensor.scalar hcells
  rw [List.map_id] at hparts
  rw [cells, hparts]
  have hshape : ∀ p ∈ row.map Tensor.scalar, p.shape = [] := by
    simp [Tensor.scalar]
  refine Tensor.stack_eq_ok (by simpa using hrow) hshape ?_ ?_
  · simp [Tensor.ofList]
  · rw [List.flatMap_map]
    simp [Tensor.ofList, Tensor.scalar]

/-- The nested lists of a matrix without lists among its cells make its array. -/
theorem cells_rowLists {h w : Nat} (hh : 0 < h) (hw : 0 < w) (a : Matrix (Fin h) (Fin w) Value)
    (hcells : ∀ i j, (a i j).cells = .ok (.scalar (a i j))) :
    (Value.list ((rowLists a).map .list)).cells = .ok (Tensor.ofMatrix a) := by
  have hrows : ∀ row ∈ rowLists a,
      row.length = w ∧ ∀ v ∈ row, v.cells = .ok (.scalar v) := by
    intro row hrow
    obtain ⟨i, rfl⟩ := (List.mem_ofFn' _ _).1 hrow
    refine ⟨List.length_ofFn, fun v hv => ?_⟩
    obtain ⟨j, rfl⟩ := (List.mem_ofFn' _ _).1 hv
    exact hcells i j
  have hparts := listCells_map Value.list Tensor.ofList (l := rowLists a) fun row hrow =>
    cells_row (List.ne_nil_of_length_pos ((hrows row hrow).1 ▸ hw)) (hrows row hrow).2
  rw [cells, hparts]
  have hshape : ∀ p ∈ (rowLists a).map Tensor.ofList, p.shape = [w] := by
    rintro p hp
    obtain ⟨row, hrow, rfl⟩ := List.mem_map.1 hp
    simp [Tensor.ofList, (hrows row hrow).1]
  refine Tensor.stack_eq_ok ?_ hshape ?_ ?_
  · exact List.ne_nil_of_length_pos (by simpa [rowLists] using hh)
  · simp [Tensor.ofMatrix, rowLists]
  · rw [Tensor.toList_ofMatrix, List.flatMap_map]
    simp only [Tensor.ofList, List.flatMap_def, List.map_id']

end Value

namespace MatrixSource

variable {h w n : Nat}

def array (a : Matrix (Fin h) (Fin w) Rat) : MatrixSource :=
  .cells (.values (Tensor.ofMatrix (a.map .fraction)))

def lists (a : Matrix (Fin h) (Fin w) Rat) : MatrixSource :=
  .nested (.list ((rowLists (a.map .fraction)).map .list))

theorem toCells_lists (hh : 0 < h) (hw : 0 < w) (a : Matrix (Fin h) (Fin w) Rat) :
    (lists a).toCells = .ok (.values (Tensor.ofMatrix (a.map .fraction))) := by
  have hsize : 0 < (Tensor.ofMatrix (a.map Value.fraction)).entries.size := by
    simpa [Tensor.ofMatrix] using Nat.mul_pos hh hw
  have hfraction := Tensor.getElem?_ofMatrix (a.map Value.fraction) ⟨0, hh⟩ ⟨0, hw⟩
  have hplain : (Tensor.ofMatrix (a.map Value.fraction)).entries.all Cells.isPlain = false := by
    rw [Array.all_eq_false]
    obtain ⟨hlt, hcell⟩ := Array.getElem?_eq_some_iff.1 hfraction
    exact ⟨_, hlt, by rw [hcell]; exact Bool.false_ne_true⟩
  have hempty : (Tensor.ofMatrix (a.map Value.fraction)).entries.isEmpty = false := by
    rw [Array.isEmpty_eq_false_iff]
    exact Array.ne_empty_of_size_pos hsize
  rw [lists, toCells, Cells.ofValue, Value.cells_rowLists hh hw _ fun i j => rfl]
  simp only [bind, Except.bind, hempty, hplain]
  rfl

def pivotLimit (cols : Option Int) (w : Nat) : Nat := cols.elim w fun i => min i.toNat w

theorem pivotLimit_le (cols : Option Int) (w : Nat) : pivotLimit cols w ≤ w := by
  cases cols with
  | none => exact le_rfl
  | some i => exact min_le_right _ _

theorem columnLimit_int (cols : Option Int) (w : Nat) :
    columnLimit (cols.map .int) w = .ok (pivotLimit cols w) := by
  cases cols <;> rfl

/-- An array of loosely typed cells is reduced as it is, in place or not. -/
theorem workspace_ofMatrix {α : Type} [Zero α] (a : Matrix (Fin h) (Fin w) α) (f : α → Value)
    (inPlace : Bool) :
    (cells (.values (Tensor.ofMatrix (a.map f)))).workspace inPlace =
      .ok (.values ((Grid.ofMatrix a).map f)) := by
  have hwork : workOfCells (.values (Tensor.ofMatrix (a.map f))) =
      .ok (.values ((Grid.ofMatrix a).map f)) := by
    simp only [workOfCells, Tensor.toGrid?_ofMatrix, Option.elim_some]
  cases inPlace with
  | false => exact hwork
  | true => exact hwork

theorem exists_workspace (a : Matrix (Fin h) (Fin w) Rat) :
    ∃ g : Grid Rat, g.height = h ∧ g.width = w ∧ g.matrix h w = a ∧
      ∀ inPlace, (array a).workspace inPlace = .ok (.values (g.map .fraction)) :=
  ⟨.ofMatrix a, Grid.height_ofMatrix a, rfl, Grid.matrix_ofMatrix a,
    workspace_ofMatrix a .fraction⟩

variable {source : MatrixSource} {inPlace : Bool} {g : Grid Value}

theorem implicitReduce_eq_ok_iff (cols : Option Int)
    (hwork : source.workspace inPlace = .ok (.values g)) {rows : List (List Value)} :
    source.implicitReduce (cols.map .int) inPlace = .ok rows ↔
      ∃ s, Reduction.implicit (m := Except ArithmeticFault) g (pivotLimit cols g.width) = .ok s ∧
        s.grid.toLists = rows := by
  cases hs : Reduction.implicit (m := Except ArithmeticFault) g (pivotLimit cols g.width) with
  | error fault =>
    simp [implicitReduce, hwork, columnLimit_int, hs, bind, Except.bind, Work.run, checked,
      Except.mapError]
  | ok s =>
    simp [implicitReduce, hwork, columnLimit_int, hs, bind, Except.bind, Work.run, checked,
      Except.mapError, pure, Except.pure]

theorem explicitReduce_eq_ok_iff (cols : Option Int)
    (hwork : source.workspace inPlace = .ok (.values g)) {rows : List (List Value)} {swaps : Nat} :
    source.explicitReduce (cols.map .int) inPlace = .ok (rows, swaps) ↔
      ∃ e, Reduction.explicit (m := Except ArithmeticFault) g (pivotLimit cols g.width) =
        .ok (e, swaps) ∧ e.toLists = rows := by
  cases he : Reduction.explicit (m := Except ArithmeticFault) g (pivotLimit cols g.width) with
  | error fault =>
    simp [explicitReduce, hwork, columnLimit_int, he, bind, Except.bind, Work.run, checked,
      Except.mapError]
  | ok result =>
    simp [explicitReduce, hwork, columnLimit_int, he, bind, Except.bind, Work.run, checked,
      Except.mapError, pure, Except.pure, Prod.ext_iff, and_comm]

theorem implicitReduce_of_workspace {s : Reduction.Implicit Value} (cols : Option Int)
    (hwork : source.workspace inPlace = .ok (.values g))
    (hs : Reduction.implicit (m := Except ArithmeticFault) g (pivotLimit cols g.width) = .ok s) :
    source.implicitReduce (cols.map .int) inPlace = .ok s.grid.toLists :=
  (implicitReduce_eq_ok_iff cols hwork).2 ⟨s, hs, rfl⟩

theorem explicitReduce_of_workspace {e : Grid Value} {swaps : Nat} (cols : Option Int)
    (hwork : source.workspace inPlace = .ok (.values g))
    (he : Reduction.explicit (m := Except ArithmeticFault) g (pivotLimit cols g.width) =
      .ok (e, swaps)) :
    source.explicitReduce (cols.map .int) inPlace = .ok (e.toLists, swaps) :=
  (explicitReduce_eq_ok_iff cols hwork).2 ⟨e, he, rfl⟩

end MatrixSource

end TwoPhase
