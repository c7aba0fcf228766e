import Mathlib.Algebra.Order.Field.Rat
import TwoPhase.Cell
import TwoPhase.Proofs.Views

/-!
Reduction of cells that stand for rationals. Where each operation on the cells gives the cell of
the exact result, both passes choose the pivots of the rational grid and return its cells. A
division by zero is never attempted, since a pivot is not zero. Loosely typed fractions are such
cells; integers are not, as their quotients are rounded.
-/
namespace TwoPhase

/-- Cells that stand for rationals: on them no operation fails or rounds. The units, with which
products start, need not be such cells. -/
structure Arithmetic.Exact (m : Type → Type) [Monad m] {α : Type} [Arithmetic m α]
    (cell : Rat → α) : Prop where
  isZero (a : Rat) : isZero m (cell a) = decide (a = 0)
  sub (a b : Rat) : Arithmetic.sub (cell a) (cell b) = (pure (cell (a - b)) : m α)
  mul (a b : Rat) : Arithmetic.mul (cell a) (cell b) = (pure (cell (a * b)) : m α)
  div (a : Rat) {b : Rat} (hb : b ≠ 0) :
    Arithmetic.div (cell a) (cell b) = (pure (cell (a / b)) : m α)
  unit_mul (negative : Bool) (a : Rat) :
    Arithmetic.mul (Arithmetic.unit m negative) (cell a) =
      (pure (cell (if negative then -a else a)) : m α)

theorem Arithmetic.exact_fraction : Exact (Except ArithmeticFault) Value.fraction where
  isZero _ := rfl
  sub _ _ := rfl
  mul _ _ := rfl
  div a b hb := by
    change Except.map _ (if b = 0 then _ else _) = _
    rw [if_neg hb]
    rfl
  unit_mul negative a := by
    cases negative with
    | false =>
      change Except.ok (Value.fraction (((1 : Int) : Rat) * a)) = _
      rw [Int.cast_one, Rat.one_mul]
      rfl
    | true =>
      change Except.ok (Value.fraction (((-1 : Int) : Rat) * a)) = _
      rw [Int.cast_neg, Int.cast_one, neg_one_mul]
      rfl

namespace Reduction

open Arithmetic

/-- Zero is told from the other cells as it is over the rationals. -/
theorem sameZeros_exact {m : Type → Type} [Monad m] {α : Type} [Zero α] [Arithmetic m α]
    {cell : Rat → α} (h : Exact m cell) (w : Nat) : SameZeros Id m (Grid.map cell) w w :=
  sameZeros_map h.isZero le_rfl

variable {m : Type → Type} [Monad m] {α : Type} [Zero α] [Arithmetic m α] {cell : Rat → α}
  {g : Grid Rat} {r c : Nat}

def cleared (g : Grid Rat) (r c : Nat) : Grid Rat :=
  Grid.ofFn g.height g.width fun i j =>
    if i = r then g.cell i j else g.cell i j - g.cell i c / g.cell r c * g.cell r j

@[simp] theorem height_cleared (g : Grid Rat) (r c : Nat) : (cleared g r c).height = g.height :=
  Grid.height_ofFn ..

@[simp] theorem width_cleared (g : Grid Rat) (r c : Nat) : (cleared g r c).width = g.width := rfl

variable [LawfulMonad m]

theorem clearedRow_map (h : Exact m cell) (hr : r < g.height) (hc : c < g.width)
    (hpivot : g.cell r c ≠ 0) {i : Nat} (hi : i < g.height) :
    clearedRow (m := m) (g.map cell) r c i =
      pure ((List.range g.width).map fun j =>
        cell (g.cell i j - g.cell i c / g.cell r c * g.cell r j)) := by
  rw [clearedRow, Grid.cell_map hi hc, Grid.cell_map hr hc, h.div _ hpivot, pure_bind, h.isZero,
    Grid.row_map hi, Grid.row_map hr]
  by_cases hfactor : g.cell i c / g.cell r c = 0
  · simp [hfactor, Grid.row, Function.comp_def]
  · simp [hfactor, Grid.row, h.mul, h.sub, List.mapM_map, Function.comp_def, List.zip_map']

theorem clearColumn_map (h : Exact m cell) (hr : r < g.height) (hc : c < g.width)
    (hpivot : g.cell r c ≠ 0) :
    clearColumn (m := m) (g.map cell) r c = pure ((cleared g r c).map cell) := by
  have hrows : ∀ i ∈ List.range g.height,
      (if i = r then pure ((g.map cell).row i) else clearedRow (m := m) (g.map cell) r c i) =
        pure ((List.range g.width).map fun j => cell (if i = r then g.cell i j else
          g.cell i j - g.cell i c / g.cell r c * g.cell r j)) := by
    intro i hi
    by_cases hir : i = r
    · subst hir
      rw [if_pos rfl, Grid.row_map hr, Grid.row, List.map_map]
      simp only [if_true, Function.comp_def]
    · simp only [hir, if_false, clearedRow_map h hr hc hpivot (List.mem_range.1 hi)]
  rw [clearColumn, Grid.height_map, mapM_eq_pure hrows, pure_bind, cleared, Grid.map_ofFn]
  exact congrArg pure (Grid.ofFn_rows ..)

end Reduction

end TwoPhase
