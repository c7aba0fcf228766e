import TwoPhase.Proofs.CofactorExpansion
import TwoPhase.Proofs.Echelon
import TwoPhase.Proofs.MatrixForms

/-!
The two determinants of a matrix of fractions. The signed diagonal of the echelon form and the
expansion into cofactors are both its determinant, at every size and whether or not it is singular,
so they agree cell for cell. A matrix without cells has the integer one.
-/
namespace TwoPhase

theorem entry_rowLists {α : Type} [Zero α] {h w : Nat} (a : Matrix (Fin h) (Fin w) α) (i : Fin h)
    (j : Fin w) : Cofactor.entry (rowLists a) i j = a i j := by
  simp [Cofactor.entry, rowLists]

namespace MatrixSource

variable {n : Nat}

theorem det_cells {t : Tensor Value} {g : Grid Value} (hshape : t.shape = [n + 1, n + 1])
    (hgrid : t.toGrid? = some g) : (cells (.values t)).det = checked (Reduction.det g) := by
  simp only [det, toCells, bind, Except.bind, Cells.shape, hshape, ne_eq, not_true_eq_false,
    if_false, n.succ_ne_zero, workOfCells, hgrid, Option.elim_some, Work.run]
  cases Reduction.det (m := Except ArithmeticFault) g <;> rfl

theorem det_array (a : Matrix (Fin (n + 1)) (Fin (n + 1)) Rat) :
    (array a).det = .ok (.fraction a.det) := by
  rw [array, det_cells rfl (Tensor.toGrid?_ofMatrix a .fraction),
    Reduction.det_map Arithmetic.exact_fraction (Grid.height_ofMatrix a) rfl,
    Grid.matrix_ofMatrix]
  rfl

theorem det_lists (hn : 0 < n) (a : Matrix (Fin n) (Fin n) Rat) :
    (lists a).det = (array a).det := by
  rw [det, det, toCells_lists hn hn]
  rfl

/-- The echelon form of a square matrix carries its determinant on the diagonal. -/
theorem exists_explicitReduce (a : Matrix (Fin n) (Fin n) Rat) :
    ∃ (e : Matrix (Fin n) (Fin n) Rat) (swaps : Nat),
      (array a).explicitReduce none false = .ok (rowLists (e.map .fraction), swaps) ∧
        a.det = (-1) ^ swaps * ∏ i, e i i := by
  obtain ⟨g, hh, hw, rfl, hwork⟩ := exists_workspace a
  obtain ⟨s, e, swaps, σ, hsweep, hswept, hσ, hexplicit⟩ :=
    Reduction.exists_explicit Arithmetic.exact_fraction hh hw.ge
  have hwidth := hσ.width.trans (hsweep.width.trans hw)
  refine ⟨e.matrix n n, swaps, ?_, hσ.signed_diagonal hsweep hswept hh hw⟩
  rw [← Grid.toLists_map hσ.height hwidth]
  exact explicitReduce_of_workspace none (hwork false) (hw.symm ▸ hexplicit)

example : (array !![0, 1, 2; 0, 2, 4; 3, 0, 1]).explicitReduce none false =
    .ok ([[.fraction 3, .fraction 0, .fraction 1], [.fraction 0, .fraction 1, .fraction 2],
      [.fraction 0, .fraction 0, .fraction 0]], 2) := by
  cbv

theorem cofactorDet_list (rows : List (List Value)) :
    (nested (.list (rows.map .list))).cofactorDet =
      if rows.any (·.length ≠ rows.length) then .error .notSquare
      else checked (Cofactor.expand rows.length rows) := by
  have hitems : (rows.map Value.list).mapM items = .ok rows := by
    rw [List.mapM_map]
    exact (mapM_eq_ok fun row _ => rfl).trans (congrArg Except.ok rows.map_id)
  simp only [cofactorDet, items, Value.items?, Option.elim_some, bind, Except.bind]
  rw [hitems]

theorem cofactorDet_rows {rows : List (List Value)}
    (hrows : ∀ row ∈ rows, row.length = rows.length) :
    (nested (.list (rows.map .list))).cofactorDet =
      checked (Cofactor.expand rows.length rows) := by
  rw [cofactorDet_list]
  exact if_neg (by simpa using hrows)

theorem cofactorDet_rowLists (a : Matrix (Fin n) (Fin n) Value) :
    (nested (.list ((rowLists a).map .list))).cofactorDet =
      checked (Cofactor.expand n (rowLists a)) := by
  have hlength : (rowLists a).length = n := List.length_ofFn
  have hsquare : ∀ row ∈ rowLists a, row.length = (rowLists a).length := by
    rw [hlength, rowLists]
    simp only [List.mem_ofFn]
    rintro _ ⟨i, rfl⟩
    exact List.length_ofFn
  rw [cofactorDet_rows hsquare, hlength]

theorem cofactorDet_lists (a : Matrix (Fin (n + 1)) (Fin (n + 1)) Rat) :
    (lists a).cofactorDet = .ok (.fraction a.det) := by
  have hholds : Cofactor.Holds (fun v q => v = Value.fraction q)
      (rowLists (a.map Value.fraction)) a := fun i j => entry_rowLists (a.map Value.fraction) i j
  obtain ⟨v, hv, rfl⟩ := Cofactor.exists_expand Arithmetic.respects_fraction hholds
  rw [lists, cofactorDet_rowLists, hv]
  rfl

theorem cofactorDet_array (a : Matrix (Fin n) (Fin n) Rat) :
    (array a).cofactorDet = (lists a).cofactorDet := by
  have hvalue : (Cells.values (Tensor.ofMatrix (a.map .fraction))).toValue =
      .list ((rowLists (a.map .fraction)).map .list) := Value.nest_ofMatrix _
  simp only [cofactorDet, array, lists, hvalue]

/-- The signed product of a diagonal. The empty one is the integer one. -/
def signedDiagonal (swaps : Nat) (e : Matrix (Fin n) (Fin n) Rat) : Value :=
  if n = 0 then .int 1 else .fraction ((-1) ^ swaps * ∏ i, e i i)

/-- Both determinants of a matrix of fractions are the signed diagonal of its echelon form, which
is the determinant. A matrix with cells may be given as an array or as nested lists. -/
theorem det_eq_cofactorDet (a : Matrix (Fin n) (Fin n) Rat) :
    ∃ (e : Matrix (Fin n) (Fin n) Rat) (swaps : Nat),
      (array a).explicitReduce none false = .ok (rowLists (e.map .fraction), swaps) ∧
      a.det = (-1) ^ swaps * ∏ i, e i i ∧
      (array a).det = .ok (signedDiagonal swaps e) ∧
      (array a).cofactorDet = .ok (signedDiagonal swaps e) ∧
      (lists a).cofactorDet = .ok (signedDiagonal swaps e) ∧
      (n ≠ 0 → (lists a).det = .ok (signedDiagonal swaps e)) := by
  obtain ⟨e, swaps, he, hdet⟩ := exists_explicitReduce a
  refine ⟨e, swaps, he, hdet, ?_⟩
  cases n with
  | zero => exact ⟨rfl, rfl, rfl, fun hn => absurd rfl hn⟩
  | succ n =>
    have hvalue : signedDiagonal swaps e = .fraction a.det := by
      rw [signedDiagonal, if_neg n.succ_ne_zero, hdet]
    rw [hvalue, cofactorDet_array, cofactorDet_lists, det_lists n.succ_pos, det_array]
    exact ⟨rfl, rfl, rfl, fun _ => rfl⟩

/-- A column without a pivot of its own and two swaps. -/
theorem det_eq_cofactorDet_singular :
    let a : Matrix (Fin 3) (Fin 3) Rat := !![0, 1, 2; 0, 2, 4; 3, 0, 1]
    3 ≠ 0 ∧ (array a).det = .ok (.fraction 0) ∧ (array a).cofactorDet = .ok (.fraction 0) ∧
      (lists a).det = .ok (.fraction 0) ∧ (lists a).cofactorDet = .ok (.fraction 0) := by
  intro a
  have hthree : 3 ≠ 0 := by decide
  have hzero : a.det = 0 := by
    rw [Matrix.det_fin_three]
    decide +kernel
  obtain ⟨e, swaps, -, hdet, harray, hcofactors, hnested, hlists⟩ := det_eq_cofactorDet a
  have hvalue : signedDiagonal swaps e = .fraction 0 := by
    rw [signedDiagonal, if_neg hthree, ← hdet, hzero]
  rw [hvalue] at harray hcofactors hnested hlists
  exact ⟨hthree, harray, hcofactors, hlists hthree, hnested⟩

end MatrixSource

end TwoPhase
