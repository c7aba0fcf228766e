import Mathlib.LinearAlgebra.Matrix.Determinant.Basic
import TwoPhase.Matrix.Cofactor

/-!
Expansion along the first row, for cells that stand for rationals. Sums, differences and products
of such cells have to be defined and to stand for the exact results; then the minors, cut out of a
list of rows, are the submatrices of Laplace's rule, and the expansion stands for the determinant
at every size from one on. A number may be stood for by cells of more than one kind. The zero with
which the sum starts need not be such a cell.
-/
namespace TwoPhase

/-- Sums, differences and products of cells stand for those of the rationals. -/
structure Arithmetic.Respects (m : Type → Type) [Monad m] {α : Type} [Zero α] [Arithmetic m α]
    (stands : α → Rat → Prop) : Prop where
  add {x y : α} {a b : Rat} (hx : stands x a) (hy : stands y b) :
    ∃ z, (Arithmetic.add x y : m α) = pure z ∧ stands z (a + b)
  sub {x y : α} {a b : Rat} (hx : stands x a) (hy : stands y b) :
    ∃ z, (Arithmetic.sub x y : m α) = pure z ∧ stands z (a - b)
  mul {x y : α} {a b : Rat} (hx : stands x a) (hy : stands y b) :
    ∃ z, (Arithmetic.mul x y : m α) = pure z ∧ stands z (a * b)
  zero_add {y : α} {b : Rat} (hy : stands y b) :
    ∃ z, (Arithmetic.add 0 y : m α) = pure z ∧ stands z b

theorem Arithmetic.respects_fraction :
    Respects (Except ArithmeticFault) fun v q => v = Value.fraction q where
  add hx hy := ⟨_, by rw [hx, hy]; rfl, rfl⟩
  sub hx hy := ⟨_, by rw [hx, hy]; rfl, rfl⟩
  mul hx hy := ⟨_, by rw [hx, hy]; rfl, rfl⟩
  zero_add {y b} hy := ⟨.fraction ((0 : Int) + b), by rw [hy]; rfl, by rw [Int.cast_zero, zero_add]⟩

namespace Cofactor

theorem entry_minor {α : Type} [Zero α] (rows : List (List α)) (i j col : Nat) :
    entry (minor (rows.drop 1) col) i j = entry rows (i + 1) (if j < col then j else j + 1) := by
  cases hrow : rows[i + 1]? with
  | none => simp [entry, minor, hrow]
  | some row =>
    simp only [entry, minor, List.getElem?_map, List.getElem?_drop, Nat.add_comm 1 i, hrow,
      Option.map_some, Option.getD_some, List.getElem?_eraseIdx]
    split <;> rfl

variable {m : Type → Type} [Monad m] [LawfulMonad m] {α : Type} [Zero α] [Arithmetic m α]
  {stands : α → Rat → Prop} {n : Nat}

def Holds (stands : α → Rat → Prop) (rows : List (List α)) (a : Matrix (Fin n) (Fin n) Rat) :
    Prop :=
  ∀ i j : Fin n, stands (entry rows i j) (a i j)

omit [LawfulMonad m] [Arithmetic m α] in
theorem Holds.minor {rows : List (List α)} {a : Matrix (Fin (n + 1)) (Fin (n + 1)) Rat}
    (h : Holds stands rows a) (col : Fin (n + 1)) :
    Holds stands (minor (rows.drop 1) col) (a.submatrix Fin.succ col.succAbove) := by
  intro i j
  have hcell := h i.succ (col.succAbove j)
  have hcol : (col.succAbove j : Nat) = if (j : Nat) < col then (j : Nat) else j + 1 := by
    simp only [Fin.succAbove, Fin.lt_def, Fin.val_castSucc]
    split <;> rfl
  rwa [hcol, Fin.val_succ, ← entry_minor] at hcell

theorem exists_foldlM_alternating (h : Arithmetic.Respects m stands) {f : Nat → m α}
    {u : Nat → Rat} (hf : ∀ col ≤ n, ∃ x, f col = pure x ∧ stands x (u col)) :
    ∃ total, (List.range (n + 1)).foldlM (fun total col => do
        let term ← f col
        if col % 2 = 0 then Arithmetic.add (m := m) total term else Arithmetic.sub total term) 0 =
      pure total ∧ stands total (∑ col ∈ Finset.range (n + 1), (-1) ^ col * u col) := by
  induction n with
  | zero =>
    obtain ⟨x, hx, hstands⟩ := hf 0 le_rfl
    obtain ⟨total, htotal, hsum⟩ := h.zero_add hstands
    exact ⟨total, by simp [hx, htotal], by simpa using hsum⟩
  | succ n ih =>
    obtain ⟨total, htotal, hsum⟩ := ih fun col hcol => hf col (hcol.trans n.le_succ)
    obtain ⟨x, hx, hstands⟩ := hf (n + 1) le_rfl
    rw [List.range_succ, List.foldlM_append, htotal, Finset.sum_range_succ _ (n + 1)]
    by_cases heven : (n + 1) % 2 = 0
    · obtain ⟨next, hnext, hnext'⟩ := h.add hsum hstands
      refine ⟨next, by simp [hx, heven, hnext], ?_⟩
      rwa [(Nat.even_iff.2 heven).neg_one_pow, one_mul]
    · obtain ⟨next, hnext, hnext'⟩ := h.sub hsum hstands
      refine ⟨next, by simp [hx, heven, hnext], ?_⟩
      rwa [(Nat.odd_iff.2 (Nat.mod_two_ne_zero.1 heven)).neg_one_pow, neg_one_mul,
        ← sub_eq_add_neg]

def term (m : Type → Type) [Monad m] [Arithmetic m α] (n : Nat) (rows : List (List α))
    (col : Nat) : m α := do
  let d ← expand n (Cofactor.minor (rows.drop 1) col)
  Arithmetic.mul (entry rows 0 col) d

theorem expand_add_three (n : Nat) (rows : List (List α)) :
    expand (m := m) (n + 3) rows = (List.range (n + 3)).foldlM (fun total col => do
      let x ← term m (n + 2) rows col
      if col % 2 = 0 then Arithmetic.add (m := m) total x else Arithmetic.sub total x) 0 := by
  simp only [expand, term, bind_assoc]

theorem exists_expand_two (h : Arithmetic.Respects m stands) {rows : List (List α)}
    {a : Matrix (Fin 2) (Fin 2) Rat} (hrows : Holds stands rows a) :
    ∃ v, expand (m := m) 2 rows = pure v ∧ stands v a.det := by
  have h₀₀ : stands (entry rows 0 0) (a 0 0) := hrows 0 0
  have h₀₁ : stands (entry rows 0 1) (a 0 1) := hrows 0 1
  have h₁₀ : stands (entry rows 1 0) (a 1 0) := hrows 1 0
  have h₁₁ : stands (entry rows 1 1) (a 1 1) := hrows 1 1
  obtain ⟨down, hdown, hdown'⟩ := h.mul h₀₀ h₁₁
  obtain ⟨up, hup, hup'⟩ := h.mul h₁₀ h₀₁
  obtain ⟨v, hv, hv'⟩ := h.sub hdown' hup'
  refine ⟨v, ?_, ?_⟩
  · rw [expand, hdown, pure_bind, hup, pure_bind, hv]
  · rwa [Matrix.det_fin_two, mul_comm (a 0 1)]

/-- The expansion stands for the determinant. -/
theorem exists_expand (h : Arithmetic.Respects m stands) {rows : List (List α)}
    {a : Matrix (Fin (n + 1)) (Fin (n + 1)) Rat} (hrows : Holds stands rows a) :
    ∃ v, expand (m := m) (n + 1) rows = pure v ∧ stands v a.det := by
  induction n generalizing rows with
  | zero => exact ⟨_, rfl, Matrix.det_fin_one a ▸ hrows 0 0⟩
  | succ n ih =>
    cases n with
    | zero => exact exists_expand_two h hrows
    | succ n =>
      have hterm : ∀ col ≤ n + 2, ∃ x, term m (n + 2) rows col = pure x ∧
          stands x (if hcol : col < n + 3 then a 0 ⟨col, hcol⟩ *
            (a.submatrix Fin.succ (Fin.succAbove ⟨col, hcol⟩)).det else 0) := by
        intro col hle
        have hcol : col < n + 3 := Nat.lt_succ_of_le hle
        obtain ⟨d, hd, hd'⟩ := ih (hrows.minor ⟨col, hcol⟩)
        obtain ⟨x, hx, hx'⟩ := h.mul (hrows 0 ⟨col, hcol⟩) hd'
        refine ⟨x, ?_, by rwa [dif_pos hcol]⟩
        rw [term, hd, pure_bind]
        exact hx
      obtain ⟨v, hv, hv'⟩ := exists_foldlM_alternating h hterm
      refine ⟨v, (expand_add_three n rows).trans hv, ?_⟩
      rw [Finset.sum_range] at hv'
      simpa [Matrix.det_succ_row_zero, mul_assoc] using hv'

end Cofactor

end TwoPhase
