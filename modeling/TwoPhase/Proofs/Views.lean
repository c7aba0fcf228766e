import Mathlib.Order.Lattice
import TwoPhase.Matrix.Reduction
import TwoPhase.Proofs.Loops

/-!
Grids looked at in another way: with other cells, or with some columns only. Reduction chooses its
rows by the zeros of the columns that it goes along, so where a view keeps these zeros, and clearing
and swapping commute with it, a run on the view is the view of the run.
-/
namespace TwoPhase

namespace Grid

variable {α β : Type} {f : α → β} {g : Grid α}

@[simp] theorem height_map (f : α → β) (g : Grid α) : (g.map f).height = g.height := by
  simp [height, map]

@[simp] theorem width_map (f : α → β) (g : Grid α) : (g.map f).width = g.width := rfl

theorem cell?_map (i j : Nat) : (g.map f).cell? i j = (g.cell? i j).map f := by
  cases h : g.rows[i]? with
  | none => simp [cell?, map, h]
  | some row => simp [cell?, map, h]

theorem ofFn_congr {h w : Nat} {u v : Nat → Nat → α} (huv : ∀ i < h, ∀ j < w, u i j = v i j) :
    ofFn h w u = ofFn h w v := by
  refine ext_cell? (by simp) rfl fun i j hi hj => ?_
  rw [height_ofFn] at hi
  rw [width_ofFn] at hj
  rw [cell?_ofFn h w u hi hj, cell?_ofFn h w v hi hj, huv i hi j hj]

variable [Zero α] [Zero β]

theorem ofFn_cell (g : Grid α) : ofFn g.height g.width g.cell = g := by
  refine ext_cell (height_ofFn ..) rfl fun i j hi hj => ?_
  rw [height_ofFn] at hi
  exact cell_ofFn _ _ _ hi hj

theorem cell?_eq_some {i j : Nat} (hi : i < g.height) (hj : j < g.width) :
    g.cell? i j = some (g.cell i j) := by
  have hrow : j < g.rows[i].size := by rw [g.size_row _ (Array.getElem_mem hi)]; exact hj
  rw [cell, cell?_eq_getElem g hi hrow]
  rfl

theorem cell_map {i j : Nat} (hi : i < g.height) (hj : j < g.width) :
    (g.map f).cell i j = f (g.cell i j) := by
  rw [cell, cell?_map, cell?_eq_some hi hj]
  rfl

theorem row_map {i : Nat} (hi : i < g.height) : (g.map f).row i = (g.row i).map f := by
  rw [row, row, List.map_map]
  exact List.map_congr_left fun j hj => cell_map hi (List.mem_range.1 hj)

theorem map_ofFn (f : α → β) (h w : Nat) (u : Nat → Nat → α) :
    (ofFn h w u).map f = ofFn h w fun i j => f (u i j) := by
  refine ext_cell (by simp) rfl fun i j hi hj => ?_
  rw [height_map, height_ofFn] at hi
  rw [width_map, width_ofFn] at hj
  rw [cell_map (by simpa using hi) hj, cell_ofFn h w u hi hj, cell_ofFn h w _ hi hj]

theorem ofFn_rows (h w : Nat) (u : Nat → Nat → α) :
    (ofFn h w fun i j =>
      (((((List.range h).map fun i => (List.range w).map (u i)).map List.toArray).toArray)[i]?.bind
        (·[j]?)).getD 0) = ofFn h w u := by
  refine ofFn_congr fun i hi j hj => ?_
  simp [hi, hj]

end Grid

namespace Reduction

open Arithmetic

def freeRows (height : Nat) (pivots : List (Nat × Nat)) : List Nat :=
  (List.range height).filter fun i => !(pivots.map Prod.fst).contains i

theorem mem_freeRows {pivots : List (Nat × Nat)} {height i : Nat} :
    i ∈ freeRows height pivots ↔ i < height ∧ ∀ q ∈ pivots, q.1 ≠ i := by
  simp only [freeRows, List.mem_filter, List.mem_range, Bool.not_eq_true', List.contains_eq_mem,
    decide_eq_false_iff_not, List.mem_map, not_exists, not_and]

theorem reduceAlong_cons {m : Type → Type} [Monad m] {α : Type} [Zero α] [Arithmetic m α]
    (g : Grid α) (pivots : List (Nat × Nat)) (c : Nat) (cols : List Nat) :
    reduceAlong (m := m) g pivots (c :: cols) =
      if pivots.length = g.height then pure ⟨g, pivots⟩
      else
        match pivotRow? m g c (freeRows g.height pivots) with
        | none => reduceAlong g pivots cols
        | some r => clearColumn g r c >>= fun g' => reduceAlong g' (pivots ++ [(r, c)]) cols :=
  rfl

variable {m n : Type → Type} {α β : Type} [Zero α] [Zero β] [Arithmetic m α] [Arithmetic n β]
  {view : Grid α → Grid β} {w limit : Nat} {g : Grid α}

/-- Only the zeros decide which row holds the pivot. -/
theorem pivotRow?_congr {g : Grid α} {k : Grid β} {c : Nat} {candidates : List Nat}
    (h : ∀ i ∈ candidates, isZero n (k.cell i c) = isZero m (g.cell i c)) :
    pivotRow? n k c candidates = pivotRow? m g c candidates := by
  induction candidates with
  | nil => rfl
  | cons i rest ih =>
    have hrest := ih fun k hk => h k (List.mem_cons_of_mem i hk)
    rw [pivotRow?, pivotRow?] at hrest
    rw [pivotRow?, pivotRow?, List.find?_cons, List.find?_cons, h i List.mem_cons_self, hrest]

/-- On grids of width `w` the view keeps the rows and, left of `limit`, the zeros. -/
structure SameZeros (m n : Type → Type) [Arithmetic m α] [Arithmetic n β]
    (view : Grid α → Grid β) (w limit : Nat) : Prop where
  height (g : Grid α) : (view g).height = g.height
  isZero {g : Grid α} (hw : g.width = w) {i c : Nat} (hi : i < g.height) (hc : c < limit) :
    isZero n ((view g).cell i c) = isZero m (g.cell i c)
  swapRows {g : Grid α} (hw : g.width = w) {r s : Nat} (hr : r < g.height) (hs : s < g.height) :
    swapRows (view g) r s = view (swapRows g r s)

theorem SameZeros.pivotRow?_eq (h : SameZeros m n view w limit) (hw : g.width = w) {c : Nat}
    (hc : c < limit) {candidates : List Nat} (hcandidates : ∀ i ∈ candidates, i < g.height) :
    pivotRow? n (view g) c candidates = pivotRow? m g c candidates :=
  pivotRow?_congr fun i hi => h.isZero hw (hcandidates i hi) hc

/-- The second pass finds the same rows on the view. -/
theorem SameZeros.echelonAlong_eq (h : SameZeros m n view w limit) (hw : g.width = w)
    {cols : List Nat} (hcols : ∀ c ∈ cols, c < limit) (t swaps : Nat) :
    echelonAlong n (view g) t swaps cols =
      (view (echelonAlong m g t swaps cols).1, (echelonAlong m g t swaps cols).2) := by
  induction cols generalizing g t swaps with
  | nil => rfl
  | cons c cols ih =>
    have hc := hcols c List.mem_cons_self
    have hrest : ∀ c' ∈ cols, c' < limit := fun c' hc' => hcols c' (List.mem_cons_of_mem c hc')
    have hrows : ∀ i ∈ (List.range g.height).drop t, i < g.height := fun i hi =>
      List.mem_range.1 (List.mem_of_mem_drop hi)
    rw [echelonAlong, echelonAlong, h.height, h.pivotRow?_eq hw hc hrows]
    by_cases hfull : g.height ≤ t
    · rw [if_pos hfull, if_pos hfull]
    rw [if_neg hfull, if_neg hfull]
    cases hrow : pivotRow? m g c ((List.range g.height).drop t) with
    | none => exact ih hw hrest t swaps
    | some row =>
      dsimp only
      by_cases htarget : row = t
      · rw [if_pos htarget, if_pos htarget]
        exact ih hw hrest (t + 1) swaps
      · have hlt := hrows row (List.mem_of_find?_eq_some hrow)
        rw [if_neg htarget, if_neg htarget, h.swapRows hw (not_le.1 hfull) hlt]
        exact ih (g := TwoPhase.Reduction.swapRows g t row) hw hrest (t + 1) (swaps + 1)

theorem swapRows_map (f : α → β) {i j : Nat} (hi : i < g.height) (hj : j < g.height) :
    swapRows (g.map f) i j = (swapRows g i j).map f := by
  rw [swapRows, swapRows, Grid.map_ofFn, Grid.height_map, Grid.width_map]
  refine Grid.ofFn_congr fun k hk l hl => Grid.cell_map ?_ hl
  split_ifs <;> assumption

theorem sameZeros_map {f : α → β} (h : ∀ a, isZero n (f a) = isZero m a) (hlimit : limit ≤ w) :
    SameZeros m n (Grid.map f) w limit where
  height g := Grid.height_map f g
  isZero hw _ _ hi hc := by rw [Grid.cell_map hi (hw ▸ hc.trans_le hlimit), h]
  swapRows _ _ _ hr hs := swapRows_map f hr hs

end Reduction

end TwoPhase
