import TwoPhase.Proofs.Exchange
import TwoPhase.Tableau.Buffers

/-!
Pivoting in two buffers shows nothing of the hidden one. The four overlapping writes fill it with
the exchange of the grid that is seen, computed from that grid alone. So a tableau in two buffers
pivots as the tableau that is seen does: at every position, also where the pivot fails, and over
every sequence of pivots, in which the buffers keep changing roles. Nothing is assumed of the
arithmetic or of what the hidden buffer holds at first.
-/
namespace TwoPhase

variable {α : Type} [Cell α]

namespace Grid

structure Exchanged (old new : Grid α) (r c : Nat) : Prop where
  height_eq : new.height = old.height
  width_eq : new.width = old.width
  cell_eq : new.cell r c = 1 / old.cell r c
  row_eq : ∀ j < old.width, j ≠ c → new.cell r j = old.cell r j / old.cell r c
  col_eq : ∀ i < old.height, i ≠ r → new.cell i c = -old.cell i c / old.cell r c
  rest_eq : ∀ i < old.height, i ≠ r → ∀ j < old.width, j ≠ c →
    new.cell i j = old.cell i j - old.cell i c * old.cell r j / old.cell r c

theorem exchanged_exchange {g : Grid α} {r c : Nat} (hr : r < g.height) (hc : c < g.width) :
    g.Exchanged (g.exchange r c) r c where
  height_eq := g.height_exchange r c
  width_eq := g.width_exchange r c
  cell_eq := by simp [exchange, hr, hc]
  row_eq j hj hjc := by simp [exchange, hr, hj, hjc]
  col_eq i hi hir := by simp [exchange, hi, hir, hc]
  rest_eq i hi hir j hj hjc := by simp [exchange, hi, hir, hj, hjc]

end Grid

namespace Buffers

/-- Of the four writes, the last one that reaches a cell decides what it holds. -/
theorem cell_fill (old target : Grid α) (r c : Nat) {i j : Nat} (hi : i < target.height)
    (hj : j < target.width) :
    (fill old target r c).cell i j =
      if i = r ∧ j = c then 1 / old.cell r c
      else if j = c then -old.cell i c / old.cell r c
      else if i = r then old.cell r j / old.cell r c
      else old.cell i j - old.cell i c * old.cell r j / old.cell r c := by
  rw [fill, Grid.cell_overwrite _ _ _ (by simpa using hi) (by simpa using hj),
    Grid.cell_overwrite _ _ _ (by simpa using hi) (by simpa using hj),
    Grid.cell_overwrite _ _ _ (by simpa using hi) (by simpa using hj),
    Grid.cell_overwrite _ _ _ hi hj]
  simp

theorem fill_eq_exchange {old target : Grid α} (hheight : target.height = old.height)
    (hwidth : target.width = old.width) (r c : Nat) : fill old target r c = old.exchange r c := by
  refine Grid.ext_cell (by simp [fill, hheight]) (by simp [fill, hwidth]) fun i j hi hj => ?_
  replace hi : i < target.height := by simpa [fill] using hi
  replace hj : j < target.width := by simpa [fill] using hj
  rw [cell_fill old target r c hi hj, Grid.exchange,
    Grid.cell_ofFn _ _ _ (hheight ▸ hi) (hwidth ▸ hj)]
  by_cases hir : i = r
  · by_cases hjc : j = c <;> simp [hir, hjc]
  · simp [hir]

theorem front_pivot (b : Buffers α) (r c : Nat) : (b.pivot r c).front = b.front.exchange r c :=
  fill_eq_exchange b.height_back b.width_back r c

end Buffers

namespace Tableau

def PivotalAlong (t : Tableau α) : List (Nat × Nat) → Prop
  | [] => True
  | (r, c) :: rest => t.Pivotal r c ∧ r < t.cells.height ∧ (t.pivot r c).1.PivotalAlong rest

instance (t : Tableau α) (r c : Nat) : Decidable (t.Pivotal r c) :=
  decidable_of_iff
    (r < t.constraintRows ∧ c < t.rhsCol ∧ Cell.isZero (t.cells.cell r c) = false)
    ⟨fun h => ⟨h.1, h.2.1, h.2.2⟩, fun h => ⟨h.row, h.col, h.isZero⟩⟩

instance decidablePivotalAlong (t : Tableau α) :
    (cells : List (Nat × Nat)) → Decidable (t.PivotalAlong cells)
  | [] => .isTrue trivial
  | (r, c) :: rest =>
    have := decidablePivotalAlong (t.pivot r c).1 rest
    inferInstanceAs
      (Decidable (t.Pivotal r c ∧ r < t.cells.height ∧ (t.pivot r c).1.PivotalAlong rest))

theorem Pivotal.col_lt_width {t : Tableau α} {r c : Nat} (h : t.Pivotal r c) :
    c < t.cells.width := by
  rw [t.width_cells]
  exact Nat.lt_succ_of_lt h.col

end Tableau

namespace Buffered

/-- A tableau in two buffers pivots, and fails to, as the tableau that is seen. -/
theorem visible_pivot (b : Buffered α) (row col : Int) :
    b.visible.pivot row col = ((b.pivot row col).1.visible, (b.pivot row col).2) := by
  -- As one map of the result, the right side splits along the same tests as the left one.
  change _ = Prod.map visible id (b.pivot row col)
  have hfront := b.buffers.front_pivot
  simp only [pivot, Tableau.pivot, visible]
  cases position? row b.buffers.front.height with
  | none => rfl
  | some r =>
    cases position? col b.buffers.front.width with
    | none => rfl
    | some c =>
      by_cases hz : Cell.isZero (b.buffers.front.cell r c) = true
      · simp only [hz, if_true]
        rfl
      · simp only [hz]
        cases position? row b.basis.length with
        | none => simp [visible, hfront]
        | some i => cases position? col b.nonbasis.length <;> simp [visible, hfront]

theorem visible_run_congr {b b' : Buffered α} (h : b'.visible = b.visible)
    (cells : List (Nat × Nat)) : (b'.run cells).visible = (b.run cells).visible := by
  induction cells generalizing b b' with
  | nil => exact h
  | cons cell rest ih =>
    refine ih ?_
    have hpivot := b.visible_pivot cell.1 cell.2
    rw [← h, b'.visible_pivot] at hpivot
    exact congrArg Prod.fst hpivot

section Pivotal

variable {b : Buffered α} {r c : Nat}

theorem buffers_pivot (h : b.visible.Pivotal r c) (hr : r < b.visible.cells.height) :
    (b.pivot r c).1.buffers = b.buffers.pivot r c := by
  have hz : Cell.isZero (b.buffers.front.cell r c) = false := h.isZero
  simp only [pivot, position?_natCast (show r < b.buffers.front.height from hr),
    position?_natCast (show c < b.buffers.front.width from h.col_lt_width), hz,
    Bool.false_eq_true, if_false, position?_natCast (show r < b.basis.length from h.row),
    position?_natCast (show c < b.nonbasis.length from h.col)]

/-- A pivot that is made: what is seen is the exchange of what was seen, which is hidden now. -/
structure Pivoted (b b' : Buffered α) (r c : Nat) : Prop where
  pivot_eq : b.pivot r c = (b', none)
  visible_eq : b.visible.pivot r c = (b'.visible, none)
  exchanged : b.visible.cells.Exchanged b'.visible.cells r c
  back_eq : b'.buffers.back = b.visible.cells

theorem pivoted_pivot (h : b.visible.Pivotal r c) (hr : r < b.visible.cells.height) :
    b.Pivoted (b.pivot r c).1 r c := by
  have hseen := b.visible_pivot r c
  rw [b.visible.pivot_eq_exchange h.row hr h.col h.isZero] at hseen
  have hvisible : b.visible.exchange r c = (b.pivot r c).1.visible := congrArg Prod.fst hseen
  have hfault : none = (b.pivot r c).2 := congrArg Prod.snd hseen
  exact
    { pivot_eq := Prod.ext rfl hfault.symm
      visible_eq := by rw [b.visible_pivot, ← hfault]
      exchanged := by
        rw [← hvisible]
        exact Grid.exchanged_exchange hr h.col_lt_width
      back_eq := by
        rw [buffers_pivot h hr]
        rfl }

end Pivotal

theorem pivoted_run {b : Buffered α} {cells : List (Nat × Nat)}
    (h : b.visible.PivotalAlong cells) {k : Nat} (hk : k < cells.length) :
    (b.run (cells.take k)).Pivoted (b.run (cells.take (k + 1))) cells[k].1 cells[k].2 := by
  induction cells generalizing b k with
  | nil => exact absurd hk (Nat.not_lt_zero k)
  | cons cell rest ih =>
    obtain ⟨hpivotal, hr, hrest⟩ := h
    cases k with
    | zero => exact pivoted_pivot hpivotal hr
    | succ k =>
      rw [b.visible_pivot] at hrest
      exact ih hrest (Nat.lt_of_succ_lt_succ hk)

/-- Over every sequence of cells that lie in the grid and are pivotal when their turn comes, each
pivot is made, and the four cases of the exchange give all cells that are seen after it from those
that were seen before it. So tableaus that differ only in what is hidden look alike after each
pivot. -/
theorem pivots_read_front (b : Buffered α) (cells : List (Nat × Nat))
    (h : b.visible.PivotalAlong cells) :
    (∀ k, ∀ hk : k < cells.length,
      (b.run (cells.take k)).Pivoted (b.run (cells.take (k + 1))) cells[k].1 cells[k].2) ∧
    ∀ b' : Buffered α, b'.visible = b.visible → ∀ k,
      (b'.run (cells.take k)).visible = (b.run (cells.take k)).visible := by
  refine ⟨fun k hk => pivoted_run h hk, fun b' hvisible k => ?_⟩
  exact visible_run_congr hvisible (cells.take k)

/-- Three pivots over a hidden buffer that holds other numbers at first. The last of them is made in
the row of the first and the column of the second. -/
theorem pivots_read_front_stale :
    let b : Buffered Rat :=
      { buffers :=
          { front := Grid.ofFn 3 3 fun i j =>
              ([[2, 1, 3], [4, 5, 6], [1, 1, 0]][i]?.getD [])[j]?.getD 0
            back := Grid.ofFn 3 3 fun i j => 90 + i + j
            height_back := by simp
            width_back := rfl }
        basis := [3, 4]
        nonbasis := [1, 2]
        width_front := rfl }
    let cells := [(0, 0), (1, 1), (0, 1)]
    b.visible.PivotalAlong cells ∧
      (∀ k, ∀ hk : k < cells.length,
        (b.run (cells.take k)).Pivoted (b.run (cells.take (k + 1))) cells[k].1 cells[k].2) ∧
      (b.run cells).visible.cells.toLists = [[-5, -6, -9], [1, 2, 3], [-1, -1, -3]] := by
  intro b cells
  have h : b.visible.PivotalAlong cells := by decide +kernel
  exact ⟨h, (b.pivots_read_front cells h).1, by decide +kernel⟩

end Buffered

end TwoPhase
