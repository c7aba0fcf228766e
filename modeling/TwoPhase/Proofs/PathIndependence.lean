import TwoPhase.Proofs.Arrangement

/-!
Pivoting over the rationals does not depend on the path. However two sequences of pivots lead from
a tableau, if they end with the same lists of variables, they end with the same tableau: the rows
are equations whose column variables are free, so the lists determine all cells. Nothing is assumed
of the shape. A constraint row that the grid lacks has zeros only and is never pivoted, so it can
be left out.
-/
namespace TwoPhase

namespace Grid

variable {α : Type} [Zero α]

theorem cell_of_height_le {g : Grid α} {i : Nat} (hi : g.height ≤ i) (j : Nat) :
    g.cell i j = 0 := by
  have hrow : g.rows[i]? = none := Array.getElem?_eq_none hi
  rw [cell, cell?, hrow]
  rfl

end Grid

namespace Tableau

variable {t t' t₁ t₂ : Tableau Rat} {r c : Nat}

theorem Pivotal.row_lt_height (h : t.Pivotal r c) : r < t.cells.height := by
  by_contra hr
  exact isZero_eq_false_iff.1 h.isZero (Grid.cell_of_height_le (not_lt.1 hr) c)

def crop (t : Tableau Rat) : Tableau Rat where
  cells := t.cells
  basis := t.basis.take t.cells.height
  nonbasis := t.nonbasis
  width_cells := t.width_cells

theorem constraintRows_crop_le (t : Tableau Rat) : t.crop.constraintRows ≤ t.crop.cells.height :=
  List.length_take_le _ _

theorem nodup_labels_crop (hn : t.labels.Nodup) : t.crop.labels.Nodup :=
  hn.sublist ((List.take_sublist _ _).append (List.Sublist.refl _))

theorem rowVar_crop (hr : r < t.cells.height) : t.crop.rowVar r = t.rowVar r := by
  rw [rowVar, rowVar, crop, List.getElem?_take_of_lt hr]

theorem crop_exchange (hr : r < t.cells.height) (c : Nat) :
    (t.exchange r c).crop = t.crop.exchange r c := by
  simp only [crop, exchange, Grid.height_exchange, List.take_set, mk.injEq, true_and]
  exact ⟨rfl, congrArg (t.nonbasis.set c) (rowVar_crop hr).symm⟩

theorem Pivotal.crop (h : t.Pivotal r c) : t.crop.Pivotal r c where
  row := (lt_min h.row_lt_height h.row).trans_eq List.length_take.symm
  col := h.col
  isZero := h.isZero

/-- Pivots at pivotal cells are exchanges in the rows that the grid has. -/
theorem Pivots.exchanges_crop (h : Pivots t t') : Exchanges t.crop t'.crop := by
  induction h with
  | refl => exact .refl
  | @tail t₁ t₂ _ hstep ih =>
    obtain ⟨r, c, hpivotal, rfl⟩ := hstep
    have hr := hpivotal.row_lt_height
    rw [t₁.pivot_eq_exchange hpivotal.row hr hpivotal.col hpivotal.isZero, crop_exchange hr c]
    exact ih.tail ⟨r, c, hpivotal.crop, rfl⟩

/-- If the variables of a tableau are distinct and two sequences of pivots lead from it to the same
lists of variables, they lead to the same tableau. -/
theorem eq_of_pivots (hn : t.labels.Nodup) (h₁ : Pivots t t₁) (h₂ : Pivots t t₂)
    (hbasis : t₁.basis = t₂.basis) (hnonbasis : t₁.nonbasis = t₂.nonbasis) : t₁ = t₂ := by
  have hexchanges₁ := h₁.exchanges_crop
  have hexchanges₂ := h₂.exchanges_crop
  have hheight : t₁.cells.height = t₂.cells.height :=
    hexchanges₁.height.trans hexchanges₂.height.symm
  have hcrop : t₁.crop.basis = t₂.crop.basis := by rw [crop, crop, hbasis, hheight]
  have hcells : t₁.crop.cells = t₂.crop.cells :=
    hexchanges₁.cells_eq t.constraintRows_crop_le (nodup_labels_crop hn) hexchanges₂ hcrop
      hnonbasis
  cases t₁
  cases t₂
  cases hbasis
  cases hnonbasis
  cases hcells
  rfl

/-- Two rows exchange their variables by three pivots in the first column, or in the second. -/
theorem eq_of_pivots_either_column :
    let t : Tableau Rat :=
      { cells := Grid.ofFn 3 3 fun i j => ([[2, 1, 3], [1, 1, 4], [1, 3, 0]][i]?.getD [])[j]?.getD 0
        basis := [3, 4]
        nonbasis := [1, 2]
        width_cells := rfl }
    let column (c : Nat) : Tableau Rat :=
      [0, 1, 0].foldl (fun t (r : Nat) => (t.pivot r c).1) t
    t.labels.Nodup ∧ Pivots t (column 0) ∧ Pivots t (column 1) ∧ (column 0).basis = [4, 3] ∧
      (column 0).nonbasis = [1, 2] ∧ column 0 = column 1 := by
  intro t column
  have hn : t.labels.Nodup := by decide
  have hpivots (c : Nat) (h₁ : t.Pivotal 0 c) (h₂ : (t.pivot 0 c).1.Pivotal 1 c)
      (h₃ : ((t.pivot 0 c).1.pivot 1 c).1.Pivotal 0 c) : Pivots t (column c) :=
    ((Relation.ReflTransGen.single ⟨0, c, h₁, rfl⟩).tail ⟨1, c, h₂, rfl⟩).tail ⟨0, c, h₃, rfl⟩
  have hfirst : Pivots t (column 0) := by
    refine hpivots 0 ⟨?_, ?_, ?_⟩ ⟨?_, ?_, ?_⟩ ⟨?_, ?_, ?_⟩ <;> decide +kernel
  have hsecond : Pivots t (column 1) := by
    refine hpivots 1 ⟨?_, ?_, ?_⟩ ⟨?_, ?_, ?_⟩ ⟨?_, ?_, ?_⟩ <;> decide +kernel
  have hbasis : (column 0).basis = [4, 3] ∧ (column 1).basis = [4, 3] := by decide +kernel
  have hnonbasis : (column 0).nonbasis = [1, 2] ∧ (column 1).nonbasis = [1, 2] := by
    decide +kernel
  exact ⟨hn, hfirst, hsecond, hbasis.1, hnonbasis.1, eq_of_pivots hn hfirst hsecond
    (hbasis.1.trans hbasis.2.symm) (hnonbasis.1.trans hnonbasis.2.symm)⟩

end Tableau

end TwoPhase
