import Mathlib.LinearAlgebra.Matrix.Nondegenerate
import TwoPhase.Proofs.MatrixForms

/-!
What the first pass of row reduction makes of a matrix of fractions. No shape is assumed and the
number of columns asked for may be any integer, negative ones and those beyond the width included.
The result is the matrix multiplied from the left by one of determinant one, so no solution of a
system is won or lost, and the pivots of the run stand alone in their columns. Rows stay in their
places, so nothing is said of the order of the pivot rows.
-/
namespace TwoPhase

variable {h w n k : Nat}

/-- Elimination with the pivots in the given rows and columns, among the first `k` columns and in
the order in which they are found. A column passed over is zero in all rows without a pivot by
then. -/
structure Eliminated (r : Matrix (Fin h) (Fin w) Rat) (row : Fin n → Fin h) (col : Fin n → Fin w)
    (k : Nat) : Prop where
  injective : Function.Injective row
  strictMono : StrictMono col
  col_lt : ∀ t, (col t : Nat) < k
  ne_zero_iff : ∀ t i, r i (col t) ≠ 0 ↔ i = row t
  skipped : ∀ j : Fin w, j < k → (∀ t, col t ≠ j) →
    ∀ i, (∀ t, col t < j → row t ≠ i) → r i j = 0

/-- The solutions of the system whose right-hand sides stand in column `c`. -/
def Solves (a : Matrix (Fin h) (Fin w) Rat) (c : Fin w) (v : Fin w → Rat) : Prop :=
  ∀ i, ∑ j ∈ Finset.univ.erase c, a i j * v j = a i c

theorem mulVec_eq_zero_iff {e : Matrix (Fin h) (Fin h) Rat} (he : e.det = 1)
    (a : Matrix (Fin h) (Fin w) Rat) (v : Fin w → Rat) :
    a.mulVec v = 0 ↔ (e * a).mulVec v = 0 := by
  rw [← Matrix.mulVec_mulVec]
  constructor
  · intro hv
    rw [hv, Matrix.mulVec_zero]
  · exact Matrix.eq_zero_of_mulVec_eq_zero (he ▸ one_ne_zero)

/-- A system is homogeneous in its unknowns and the factor minus one of its right-hand sides. -/
theorem solves_iff (a : Matrix (Fin h) (Fin w) Rat) (c : Fin w) (v : Fin w → Rat) :
    Solves a c v ↔ a.mulVec (Function.update v c (-1)) = 0 := by
  have hrow : ∀ i, a.mulVec (Function.update v c (-1)) i =
      ∑ j ∈ Finset.univ.erase c, a i j * v j - a i c := by
    intro i
    have hrest : ∑ j ∈ Finset.univ.erase c, a i j * Function.update v c (-1) j =
        ∑ j ∈ Finset.univ.erase c, a i j * v j :=
      Finset.sum_congr rfl fun j hj => by rw [Function.update_of_ne (Finset.ne_of_mem_erase hj)]
    rw [Matrix.mulVec, dotProduct, ← Finset.sum_erase_add _ _ (Finset.mem_univ c), hrest,
      Function.update_self, mul_neg_one, sub_eq_add_neg]
  rw [funext_iff]
  exact forall_congr' fun i => by rw [hrow, Pi.zero_apply, sub_eq_zero]

namespace Reduction

theorem Swept.exists_eliminated {g : Grid Rat} {pivots : List (Nat × Nat)}
    (hg : Swept g pivots k) (hh : g.height = h) (hk : k ≤ w) :
    ∃ (row : Fin pivots.length → Fin h) (col : Fin pivots.length → Fin w),
      pivots = List.ofFn (fun t => ((row t : Nat), (col t : Nat))) ∧
        Eliminated (g.matrix h w) row col k := by
  have hmem : ∀ t : Fin pivots.length, pivots[t] ∈ pivots := fun t => List.getElem_mem t.isLt
  have hrow : ∀ t : Fin pivots.length, pivots[t].1 < h := fun t => hh ▸ hg.row_lt _ (hmem t)
  have hcol : ∀ t : Fin pivots.length, pivots[t].2 < k := fun t => hg.col_lt _ (hmem t)
  refine ⟨fun t => ⟨pivots[t].1, hrow t⟩, fun t => ⟨pivots[t].2, (hcol t).trans_le hk⟩,
    List.ofFn_getElem.symm, ?_⟩
  exact
    { injective := by
        intro s t hst
        exact Fin.ext (hg.fst_inj s.isLt t.isLt (congrArg Fin.val hst))
      strictMono := fun s t hst => hg.snd_lt_snd hst s.isLt t.isLt
      col_lt := hcol
      ne_zero_iff := by
        intro t i
        constructor
        · intro hne
          by_contra hi
          exact hne (hg.alone _ (hmem t) i (hh ▸ i.isLt) fun hit => hi (Fin.ext hit))
        · rintro rfl
          exact hg.ne_zero _ (hmem t)
      skipped := by
        intro j hj hfree i hi
        by_cases hrest : ∀ t : Fin pivots.length, pivots[t].1 ≠ i
        · refine hg.blank i (mem_freeRows.2 ⟨hh ▸ i.isLt, fun q hq => ?_⟩) j hj
          obtain ⟨t, ht, rfl⟩ := List.getElem_of_mem hq
          exact hrest ⟨t, ht⟩
        · -- The pivot of this row was found later, so it stands to the right.
          push Not at hrest
          obtain ⟨t, ht⟩ := hrest
          have hne : pivots[t].2 ≠ j := fun h => hfree t (Fin.ext h)
          have hle : (j : Nat) ≤ pivots[t].2 := not_lt.1 fun h => hi t h (Fin.ext ht)
          rw [Grid.matrix_apply, ← ht]
          exact hg.leading _ (hmem t) j (lt_of_le_of_ne hle hne.symm) }

end Reduction

namespace MatrixSource

def pivots (source : MatrixSource) (cols : Option Value) (inPlace : Bool) :
    Except MatrixFault (List (Nat × Nat)) := do
  (← source.workspace inPlace).run fun _ g => do
    let reduced ← checked (Reduction.implicit g (← columnLimit cols g.width))
    return reduced.pivots

theorem pivots_of_workspace {source : MatrixSource} {inPlace : Bool} {g : Grid Value}
    {s : Reduction.Implicit Value} (cols : Option Int)
    (hwork : source.workspace inPlace = .ok (.values g))
    (hs : Reduction.implicit (m := Except ArithmeticFault) g (pivotLimit cols g.width) = .ok s) :
    source.pivots (cols.map .int) inPlace = .ok s.pivots := by
  simp only [pivots, hwork, columnLimit_int, hs, bind, Except.bind, Work.run, checked,
    Except.mapError, pure, Except.pure]

/-- The first pass clears the columns of its pivots by row operations of determinant one. -/
theorem implicitReduce_eliminates (a : Matrix (Fin h) (Fin w) Rat) (cols : Option Int)
    (inPlace : Bool) :
    ∃ (r : Matrix (Fin h) (Fin w) Rat) (n : Nat) (row : Fin n → Fin h) (col : Fin n → Fin w),
      (array a).implicitReduce (cols.map .int) inPlace = .ok (rowLists (r.map .fraction)) ∧
      (array a).pivots (cols.map .int) inPlace =
        .ok (List.ofFn fun t => ((row t : Nat), (col t : Nat))) ∧
      Eliminated r row col (pivotLimit cols w) ∧
      (∃ e : Matrix (Fin h) (Fin h) Rat, e.det = 1 ∧ r = e * a) ∧
      (∀ v, a.mulVec v = 0 ↔ r.mulVec v = 0) ∧
      ∀ c v, Solves a c v ↔ Solves r c v := by
  obtain ⟨g, hh, rfl, rfl, hwork⟩ := exists_workspace a
  have hlimit := pivotLimit_le cols g.width
  obtain ⟨s, hsweep, hswept, hs⟩ := Reduction.exists_implicit Arithmetic.exact_fraction hlimit
  obtain ⟨row, col, hpivots, helim⟩ := hswept.exists_eliminated (hsweep.height.trans hh) hlimit
  obtain ⟨e, he, hr⟩ := hsweep.exists_eliminator hh rfl
  have hkernel : ∀ v, (g.matrix h g.width).mulVec v = 0 ↔
      (s.grid.matrix h g.width).mulVec v = 0 := fun v => hr ▸ mulVec_eq_zero_iff he _ v
  refine ⟨_, _, row, col, ?_, ?_, helim, ⟨e, he, hr⟩, hkernel, fun c v => ?_⟩
  · rw [← Grid.toLists_map (hsweep.height.trans hh) hsweep.width]
    exact implicitReduce_of_workspace cols (hwork inPlace) hs
  · rw [← hpivots]
    exact pivots_of_workspace cols (hwork inPlace) hs
  · rw [solves_iff, solves_iff, hkernel]

/-- The first column has its pivot in the last row. The third is passed over when two rows have
pivots, so it is blank in the other one. -/
theorem implicitReduce_eliminates_skipped :
    let a : Matrix (Fin 3) (Fin 3) Rat := !![0, 1, 2; 0, 2, 4; 3, 0, 1]
    ∃ r : Matrix (Fin 3) (Fin 3) Rat,
      (array a).implicitReduce none false = .ok (rowLists (r.map .fraction)) ∧
      (array a).pivots none false = .ok [(2, 0), (0, 1)] ∧ r 1 2 = 0 ∧
      ∀ v, a.mulVec v = 0 ↔ r.mulVec v = 0 := by
  intro a
  have hrun : (array a).pivots none false = .ok [(2, 0), (0, 1)] := by decide +kernel
  obtain ⟨r, n, row, col, hr, hpivots, helim, -, hkernel, -⟩ :=
    implicitReduce_eliminates a none false
  have hlist : List.ofFn (fun t => ((row t : Nat), (col t : Nat))) = [(2, 0), (0, 1)] :=
    Except.ok.inj (hpivots.symm.trans hrun)
  have hpivot : ∀ t, ((row t : Nat), (col t : Nat)) = (2, 0) ∨
      ((row t : Nat), (col t : Nat)) = (0, 1) := by
    intro t
    have hmem : ((row t : Nat), (col t : Nat)) ∈ [(2, 0), (0, 1)] :=
      hlist ▸ List.mem_ofFn.2 ⟨t, rfl⟩
    simpa using hmem
  refine ⟨r, hr, hrun, helim.skipped 2 (by decide) ?_ 1 ?_, hkernel⟩
  · intro t hcol
    rcases hpivot t with h | h <;> simp [hcol] at h
  · intro t _ hrow
    rcases hpivot t with h | h <;> simp [hrow] at h

end MatrixSource

end TwoPhase
