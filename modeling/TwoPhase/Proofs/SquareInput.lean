import TwoPhase.Proofs.Determinant

/-!
Arrays that the determinants refuse because they are not square. The determinant from the echelon
form goes by the height and the width and refuses exactly the arrays in which they differ. The
expansion into cofactors goes by the lengths of the rows, and an array without rows has no row of a
wrong length: it is taken for the one without cells, whatever its width, and its determinant is one.
Nothing is assumed of the cells, and no other fault has the message.
-/
namespace TwoPhase

theorem MatrixFault.message_eq_some_iff {fault : MatrixFault} :
    fault.message = some "det(A) requires A to be a square matrix" ↔ fault = .notSquare := by
  cases fault with
  | inPlaceKind kind =>
    -- the two messages differ in their first letter
    refine iff_of_false (fun h => ?_) nofun
    have hhead := congrArg (·.map fun s => s.toList.head?) h
    simp [message] at hhead
  | _ => simp [message]

theorem Tensor.exists_toGrid? {α : Type} [Zero α] {t : Tensor α} {h w : Nat}
    (hshape : t.shape = [h, w]) : ∃ g, t.toGrid? = some g := by
  rw [toGrid?, hshape]
  exact ⟨_, rfl⟩

namespace MatrixSource

def NotSquare (result : Except MatrixFault Value) : Prop :=
  ∃ fault, result = .error fault ∧ fault.message = some "det(A) requires A to be a square matrix"

theorem notSquare_iff {result : Except MatrixFault Value} :
    NotSquare result ↔ result = .error .notSquare := by
  simp [NotSquare, MatrixFault.message_eq_some_iff]

theorem checked_map {β γ : Type} (result : Except ArithmeticFault β) (f : β → γ) :
    (do return f (← checked result)) = checked (result.map f) := by
  cases result <;> rfl

theorem not_notSquare_checked (result : Except ArithmeticFault Value) :
    ¬NotSquare (checked result) := by
  rw [notSquare_iff]
  cases result with
  | ok v => exact nofun
  | error fault => exact nofun

variable {c : Cells} {h w : Nat}

theorem exists_workOfCells (hshape : c.shape = [h, w]) : ∃ work, workOfCells c = .ok work := by
  have hgrid {α : Type} [Zero α] {t : Tensor α} (f : Grid α → Work) (ht : t.shape = [h, w]) :
      ∃ work, t.toGrid?.elim (.error .notTwoDimensional) (fun g => .ok (f g)) =
        (.ok work : Except MatrixFault Work) := by
    obtain ⟨g, hg⟩ := Tensor.exists_toGrid? ht
    exact ⟨f g, by rw [hg]; rfl⟩
  cases c with
  | bools t | ints t | floats t | texts t | values t => exact hgrid _ hshape

theorem notSquare_det_iff (hshape : c.shape = [h, w]) : NotSquare (cells c).det ↔ h ≠ w := by
  obtain ⟨work, hwork⟩ := exists_workOfCells hshape
  have hdet : (cells c).det =
      if h ≠ w then .error .notSquare
      else if h = 0 then .ok (.int 1)
      else work.run fun value g => do return value (← checked (Reduction.det g)) := by
    simp only [det, toCells, bind, Except.bind, hshape, hwork]
    rfl
  rw [hdet]
  by_cases hsquare : h = w
  · refine iff_of_false ?_ (not_not.2 hsquare)
    rw [if_neg (not_not.2 hsquare)]
    by_cases hzero : h = 0
    · rw [if_pos hzero, notSquare_iff]
      rintro ⟨⟩
    · rw [if_neg hzero]
      cases work with
      | floats g | texts g | values g =>
        rw [Work.run, checked_map]
        exact not_notSquare_checked _
  · rw [if_pos hsquare]
    exact iff_of_true (notSquare_iff.2 rfl) hsquare

theorem exists_rows (hshape : c.shape = [h, w]) :
    ∃ rows : List (List Value), c.toValue = .list (rows.map .list) ∧ rows.length = h ∧
      ∀ row ∈ rows, row.length = w := by
  have hrow (entries : List Value) :
      ∃ row, Value.nest [w] entries = .list row ∧ row.length = w := ⟨_, rfl, by simp⟩
  choose row hnest hlength using hrow
  let part (i : Nat) : List Value := (c.entries.drop (i * (w * 1))).take (w * 1)
  refine ⟨(List.range h).map fun i => row (part i), ?_, by simp, ?_⟩
  · rw [Cells.toValue, hshape, List.map_map, Value.nest]
    exact congrArg Value.list (List.map_congr_left fun i _ => hnest (part i))
  · intro _ hmem
    obtain ⟨i, -, rfl⟩ := List.mem_map.1 hmem
    exact hlength _

theorem notSquare_cofactorDet_iff (hshape : c.shape = [h, w]) :
    NotSquare (cells c).cofactorDet ↔ h ≠ w ∧ h ≠ 0 := by
  obtain ⟨rows, hvalue, rfl, hrows⟩ := exists_rows hshape
  have hnested : (cells c).cofactorDet = (nested (.list (rows.map .list))).cofactorDet := by
    rw [← hvalue]
    rfl
  have hany : rows.any (·.length ≠ rows.length) = true ↔ rows.length ≠ w ∧ rows.length ≠ 0 := by
    simp only [List.any_eq_true, decide_eq_true_eq]
    constructor
    · rintro ⟨row, hrow, hlength⟩
      rw [hrows row hrow] at hlength
      exact ⟨hlength.symm, (List.length_pos_of_mem hrow).ne'⟩
    · rintro ⟨hwidth, hheight⟩
      obtain ⟨row, hrow⟩ := List.exists_mem_of_length_pos (Nat.pos_of_ne_zero hheight)
      exact ⟨row, hrow, hrows row hrow ▸ hwidth.symm⟩
  rw [hnested, cofactorDet_list, ← hany]
  split
  · next h => exact iff_of_true (notSquare_iff.2 rfl) h
  · next h => exact iff_of_false (not_notSquare_checked _) h

/-- The determinant from the echelon form refuses exactly the arrays that are not square. The
expansion into cofactors refuses the same arrays except those without rows, and of these it gives
the determinant one whatever their width. -/
theorem refused_iff_not_square (c : Cells) {h w : Nat} (hshape : c.shape = [h, w]) :
    (NotSquare (cells c).det ↔ h ≠ w) ∧ (NotSquare (cells c).cofactorDet ↔ h ≠ w ∧ h ≠ 0) ∧
      (h = 0 → (cells c).cofactorDet = .ok (.int 1)) := by
  refine ⟨notSquare_det_iff hshape, notSquare_cofactorDet_iff hshape, ?_⟩
  rintro rfl
  obtain ⟨rows, hvalue, hlength, -⟩ := exists_rows hshape
  obtain rfl := List.eq_nil_of_length_eq_zero hlength
  simp only [cofactorDet, hvalue]
  rfl

/-- Columns without rows are refused by one determinant, rows without columns by both. -/
theorem refused_without_cells :
    let flat : Cells := .floats ⟨[0, 2], #[], rfl⟩
    let thin : Cells := .floats ⟨[2, 0], #[], rfl⟩
    flat.shape = [0, 2] ∧ NotSquare (cells flat).det ∧ ¬NotSquare (cells flat).cofactorDet ∧
      thin.shape = [2, 0] ∧ NotSquare (cells thin).det ∧ NotSquare (cells thin).cofactorDet := by
  intro flat thin
  obtain ⟨hdet, hcofactor, -⟩ := refused_iff_not_square flat rfl
  obtain ⟨hdet', hcofactor', -⟩ := refused_iff_not_square thin rfl
  exact ⟨rfl, hdet.2 (by decide), mt hcofactor.1 (by decide), rfl, hdet'.2 (by decide),
    hcofactor'.2 (by decide)⟩

/-- The two determinants do not refuse the same arrays. -/
theorem refused_differently_without_rows :
    let c : Cells := .floats ⟨[0, 3], #[], rfl⟩
    c.shape = [0, 3] ∧ NotSquare (cells c).det ∧ ¬NotSquare (cells c).cofactorDet := by
  intro c
  have hcofactor : (cells c).cofactorDet = .ok (.int 1) := rfl
  refine ⟨rfl, ⟨.notSquare, rfl, rfl⟩, ?_⟩
  rw [notSquare_iff, hcofactor]
  exact nofun

end MatrixSource

end TwoPhase
