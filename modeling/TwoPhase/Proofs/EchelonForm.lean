import Mathlib.LinearAlgebra.Matrix.Rank
import TwoPhase.Proofs.Echelon
import TwoPhase.Proofs.FullElimination

/-!
What both passes make of a matrix of fractions: the rows left by the first pass, permuted so that
the pivots go down and to the right. The number of pivots is the rank of the columns considered,
and a square matrix reduced along all its columns comes out diagonal exactly if it is nonsingular.
As for the first pass, no shape is assumed and any number of columns may be asked for.
-/
namespace TwoPhase

variable {h w n k : Nat} {r : Matrix (Fin h) (Fin w) Rat} {row : Fin n → Fin h}
  {col : Fin n → Fin w}

/-- Echelon form in the first `k` columns: the first rows lead in the given columns and have them
for themselves, the others are blank. -/
structure IsEchelon (r : Matrix (Fin h) (Fin w) Rat) (col : Fin n → Fin w) (k : Nat) : Prop where
  length_le : n ≤ h
  strictMono : StrictMono col
  col_lt : ∀ t, (col t : Nat) < k
  ne_zero_iff : ∀ (t : Fin n) (i : Fin h), r i (col t) ≠ 0 ↔ (i : Nat) = t
  leading : ∀ (t : Fin n) (i : Fin h), (i : Nat) = t → ∀ j < col t, r i j = 0
  blank : ∀ i : Fin h, n ≤ i → ∀ j : Fin w, j < k → r i j = 0

theorem Eliminated.blank (hr : Eliminated r row col k) {i : Fin h} (hi : ∀ t, row t ≠ i)
    {j : Fin w} (hj : j < k) : r i j = 0 := by
  by_cases hpivot : ∃ t, col t = j
  · obtain ⟨t, rfl⟩ := hpivot
    exact not_not.1 fun hne => hi t ((hr.ne_zero_iff t i).1 hne).symm
  · exact hr.skipped j hj (not_exists.1 hpivot) i fun t _ => hi t

theorem Eliminated.permute (hr : Eliminated r row col k) {σ : Equiv.Perm (Fin h)}
    {row' : Fin n → Fin h} (hσ : ∀ t, σ (row' t) = row t) :
    Eliminated (r.submatrix σ id) row' col k where
  injective s t hst := hr.injective (by rw [← hσ, ← hσ, hst])
  strictMono := hr.strictMono
  col_lt := hr.col_lt
  ne_zero_iff t i := by
    rw [Matrix.submatrix_apply, id_eq, hr.ne_zero_iff, ← hσ, σ.apply_eq_iff_eq]
  skipped j hj hfree i hi :=
    hr.skipped j hj hfree (σ i) fun t ht hrow => hi t ht (σ.injective ((hσ t).trans hrow))

theorem Eliminated.isEchelon {hn : n ≤ h} (hr : Eliminated r (Fin.castLE hn) col k) :
    IsEchelon r col k where
  length_le := hn
  strictMono := hr.strictMono
  col_lt := hr.col_lt
  ne_zero_iff t i := by rw [hr.ne_zero_iff, Fin.ext_iff, Fin.val_castLE]
  leading t i hi j hj := by
    obtain rfl : i = Fin.castLE hn t := Fin.ext hi
    by_cases hpivot : ∃ u, col u = j
    · obtain ⟨u, rfl⟩ := hpivot
      refine not_not.1 fun hne => hj.ne ?_
      rw [hr.injective ((hr.ne_zero_iff u _).1 hne)]
    · -- Only rows above have their pivots to the left.
      refine hr.skipped j ((Fin.lt_def.1 hj).trans (hr.col_lt t)) (not_exists.1 hpivot) _ ?_
      intro u hu hrow
      rw [hr.injective hrow] at hu
      exact lt_asymm hu hj
  blank i hi j hj := by
    refine hr.blank (fun t ht => ?_) hj
    subst ht
    exact t.isLt.not_ge hi

/-- The rows of a sweep, once arranged, have their pivots in order. -/
theorem Reduction.Arranged.exists_eliminated {s e : Grid Rat} {σ : Equiv.Perm (Fin h)}
    {pivots : List (Nat × Nat)} {swaps : Nat}
    (hσ : Arranged s e σ pivots pivots.length swaps) (hs : Swept s pivots k)
    (hh : s.height = h) (hk : k ≤ w) :
    ∃ (hle : pivots.length ≤ h) (col : Fin pivots.length → Fin w),
      Eliminated ((s.matrix h w).submatrix σ id) (Fin.castLE hle) col k := by
  obtain ⟨row, col, hpivots, helim⟩ := hs.exists_eliminated hh hk
  have hle := hs.length_le.trans_eq hh
  have hplaced : ∀ t, σ (Fin.castLE hle t) = row t := by
    intro t
    have hrow := List.getElem_of_eq hpivots t.isLt
    rw [List.getElem_ofFn] at hrow
    exact Fin.ext ((hσ.placed _ t.isLt t.isLt).trans (congrArg Prod.fst hrow))
  exact ⟨hle, col, helim.permute hplaced⟩

theorem Eliminated.rank_eq (hr : Eliminated r row col k) (hk : k ≤ w) :
    (r.submatrix id (Fin.castLE hk)).rank = n := by
  refine le_antisymm ?_ ?_
  · have hrows : Function.support (r.submatrix id (Fin.castLE hk)).row ⊆
        (Finset.univ.image row : Finset (Fin h)) := by
      intro i hi
      rw [Finset.coe_image, Finset.coe_univ, Set.image_univ]
      by_contra hfree
      refine hi (funext fun j => hr.blank (fun t ht => hfree ⟨t, ht⟩) ?_)
      exact j.isLt
    calc (r.submatrix id (Fin.castLE hk)).rank
        ≤ (Finset.univ.image row).card := Matrix.rank_le_card_of_support_subset _ _ hrows
      _ ≤ (Finset.univ : Finset (Fin n)).card := Finset.card_image_le
      _ = n := Finset.card_fin n
  · -- The pivots are the diagonal of a minor without other cells.
    let minor := (r.submatrix id (Fin.castLE hk)).submatrix row fun t => ⟨col t, hr.col_lt t⟩
    have hminor : minor = Matrix.diagonal fun t => r (row t) (col t) := by
      ext s t
      by_cases hst : s = t
      · rw [hst, Matrix.diagonal_apply_eq]
        rfl
      · rw [Matrix.diagonal_apply_ne _ hst]
        exact not_not.1 fun hne => hst (hr.injective ((hr.ne_zero_iff t (row s)).1 hne))
    have hdet : minor.det ≠ 0 := by
      rw [hminor, Matrix.det_diagonal]
      exact Finset.prod_ne_zero_iff.2 fun t _ => (hr.ne_zero_iff t (row t)).2 rfl
    calc n = Fintype.card (Fin n) := (Fintype.card_fin n).symm
      _ = minor.rank := (Matrix.rank_of_det_ne_zero hdet).symm
      _ ≤ (r.submatrix id (Fin.castLE hk)).rank := Matrix.rank_submatrix_le _ _ _

/-- Row operations and a permutation of the rows keep the rank of any columns. -/
theorem rank_submatrix_permute {a : Matrix (Fin h) (Fin w) Rat} {e : Matrix (Fin h) (Fin h) Rat}
    (he : e.det = 1) (σ : Equiv.Perm (Fin h)) (f : Fin k → Fin w) :
    (((e * a).submatrix σ id).submatrix id f).rank = (a.submatrix id f).rank := by
  have hsplit : ((e * a).submatrix σ id).submatrix id f =
      (e * a.submatrix id f).submatrix σ (Equiv.refl (Fin k)) := rfl
  rw [hsplit, Matrix.rank_submatrix,
    Matrix.rank_mul_eq_right_of_det_ne_zero _ _ (he ▸ one_ne_zero)]

theorem IsEchelon.diagonal_iff {r : Matrix (Fin h) (Fin h) Rat} {col : Fin n → Fin h}
    (hr : IsEchelon r col h) : (∀ i j, r i j ≠ 0 ↔ i = j) ↔ r.det ≠ 0 := by
  constructor
  · intro hdiagonal
    have hr : r = Matrix.diagonal fun i => r i i := by
      ext i j
      by_cases hij : i = j
      · rw [hij, Matrix.diagonal_apply_eq]
      · rw [Matrix.diagonal_apply_ne _ hij]
        exact not_not.1 fun hne => hij ((hdiagonal i j).1 hne)
    rw [hr, Matrix.det_diagonal]
    exact Finset.prod_ne_zero_iff.2 fun i _ => (hdiagonal i i).2 rfl
  · intro hdet
    -- A row without a pivot would be blank, so each column has one.
    obtain rfl : n = h := by
      refine le_antisymm hr.length_le (not_lt.1 fun hlt => hdet ?_)
      exact Matrix.det_eq_zero_of_row_eq_zero ⟨n, hlt⟩ fun j => hr.blank _ le_rfl j j.isLt
    have hcol : col = id := hr.strictMono.eq_id
    intro i j
    have hpivot := hr.ne_zero_iff j i
    rwa [hcol, id_eq, Fin.val_inj] at hpivot

/-- The sign of the permutation does not matter for being nonsingular. -/
theorem IsEchelon.diagonal_iff_nonsingular {a : Matrix (Fin h) (Fin w) Rat}
    {e : Matrix (Fin h) (Fin h) Rat} {σ : Equiv.Perm (Fin h)} (he : e.det = 1)
    (hr : IsEchelon ((e * a).submatrix σ id) col w) (hsquare : h = w) :
    (∀ i j, (e * a).submatrix σ id i j ≠ 0 ↔ (i : Nat) = j) ↔
      (a.submatrix id (Fin.cast hsquare)).det ≠ 0 := by
  subst hsquare
  have hsign : ((Equiv.Perm.sign σ : Int) : Rat) ≠ 0 :=
    Int.cast_ne_zero.2 (Units.ne_zero (Equiv.Perm.sign σ))
  have hdet : ((e * a).submatrix σ id).det ≠ 0 ↔ a.det ≠ 0 := by
    rw [Matrix.det_permute, Matrix.det_mul, he, one_mul, mul_ne_zero_iff, and_iff_right hsign]
  simp only [← Fin.ext_iff]
  exact hr.diagonal_iff.trans hdet

namespace MatrixSource

/-- Both passes give an echelon form of the first `k` columns, whose leading rows are as many as
the rank of these columns. -/
theorem explicitReduce_echelon (a : Matrix (Fin h) (Fin w) Rat) (cols : Option Int)
    (inPlace : Bool) :
    ∃ (s r : Matrix (Fin h) (Fin w) Rat) (swaps : Nat) (σ : Equiv.Perm (Fin h)) (n : Nat)
      (col : Fin n → Fin w),
      (array a).implicitReduce (cols.map .int) inPlace = .ok (rowLists (s.map .fraction)) ∧
      (array a).explicitReduce (cols.map .int) inPlace =
        .ok (rowLists (r.map .fraction), swaps) ∧
      r = s.submatrix σ id ∧ Equiv.Perm.sign σ = (-1) ^ swaps ∧
      IsEchelon r col (pivotLimit cols w) ∧
      (a.submatrix id (Fin.castLE (pivotLimit_le cols w))).rank = n ∧
      ∀ hsquare : h = w, cols = none →
        ((∀ i j, r i j ≠ 0 ↔ (i : Nat) = j) ↔ (a.submatrix id (Fin.cast hsquare)).det ≠ 0) := by
  obtain ⟨g, hh, rfl, rfl, hwork⟩ := exists_workspace a
  have hlimit := pivotLimit_le cols g.width
  obtain ⟨s, hsweep, hswept, hs⟩ := Reduction.exists_implicit Arithmetic.exact_fraction hlimit
  have hheight := hsweep.height.trans hh
  obtain ⟨e, swaps, σ, hσ, hexplicit⟩ := Reduction.exists_explicit_of_implicit
    Arithmetic.exact_fraction hheight (hsweep.width ▸ hlimit) hswept hs
  obtain ⟨hle, col, helim⟩ := hσ.exists_eliminated hswept hheight hlimit
  obtain ⟨k, hk, hreduced⟩ := hsweep.exists_eliminator hh rfl
  have hrows := hσ.matrix_eq hsweep.width
  refine ⟨s.grid.matrix h g.width, e.matrix h g.width, swaps, σ, s.pivots.length, col, ?_, ?_,
    hrows, Units.ext hσ.sign, hrows ▸ helim.isEchelon, ?_, ?_⟩
  · rw [← Grid.toLists_map hheight hsweep.width]
    exact implicitReduce_of_workspace cols (hwork inPlace) hs
  · rw [← Grid.toLists_map hσ.height (hσ.width.trans hsweep.width)]
    exact explicitReduce_of_workspace cols (hwork inPlace) hexplicit
  · rw [← helim.rank_eq hlimit, hreduced, rank_submatrix_permute hk]
  · rintro hsquare rfl
    have hechelon := helim.isEchelon
    rw [hreduced] at hechelon
    rw [hrows, hreduced]
    exact hechelon.diagonal_iff_nonsingular hk hsquare

/-- The pivot rows of a nonsingular matrix, found in the order 2, 0, 1. -/
theorem explicitReduce_echelon_nonsingular :
    let a : Matrix (Fin 3) (Fin 3) Rat := !![0, 1, 2; 0, 2, 5; 3, 0, 1]
    3 = 3 ∧ (none : Option Int) = none ∧ ∃ (r : Matrix (Fin 3) (Fin 3) Rat) (swaps : Nat),
      (array a).explicitReduce none false = .ok (rowLists (r.map .fraction), swaps) ∧
        ∀ i j, r i j ≠ 0 ↔ (i : Nat) = j := by
  intro a
  obtain ⟨s, r, swaps, σ, n, col, -, hr, -, -, -, -, hdiagonal⟩ :=
    explicitReduce_echelon a none false
  have hdet : a.det ≠ 0 := by
    rw [Matrix.det_fin_three]
    decide +kernel
  exact ⟨rfl, rfl, r, swaps, hr, (hdiagonal rfl rfl).2 hdet⟩

end MatrixSource

end TwoPhase
