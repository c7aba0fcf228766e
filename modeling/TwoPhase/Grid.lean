/-!
Rectangular grids. The width is kept apart from the rows, so a grid without rows still has
columns. Main statements: a grid is determined by its height, its width and its cells, and
`cell_ofFn` reads a tabulated grid back.
-/
namespace TwoPhase

universe u v

structure Grid (α : Type u) where
  width : Nat
  rows : Array (Array α)
  size_row : ∀ row ∈ rows, row.size = width

namespace Grid

variable {α : Type u} {β : Type v}

def height (g : Grid α) : Nat := g.rows.size

def ofFn (h w : Nat) (f : Nat → Nat → α) : Grid α where
  width := w
  rows := Array.ofFn fun i : Fin h => Array.ofFn fun j : Fin w => f i j
  size_row row hrow := by
    obtain ⟨i, hi, rfl⟩ := Array.mem_iff_getElem.1 hrow
    simp

def cell? (g : Grid α) (i j : Nat) : Option α := g.rows[i]?.bind (·[j]?)

/-- The cell in row `i` and column `j`, and zero outside the grid. -/
def cell [Zero α] (g : Grid α) (i j : Nat) : α := (g.cell? i j).getD 0

def row [Zero α] (g : Grid α) (i : Nat) : List α := (List.range g.width).map (g.cell i)

def toLists (g : Grid α) : List (List α) := g.rows.toList.map Array.toList

def map (f : α → β) (g : Grid α) : Grid β where
  width := g.width
  rows := g.rows.map (·.map f)
  size_row row hrow := by
    obtain ⟨r, hr, rfl⟩ := Array.mem_map.1 hrow
    simpa using g.size_row r hr

@[simp] theorem width_ofFn (h w : Nat) (f : Nat → Nat → α) : (ofFn h w f).width = w := rfl

@[simp] theorem height_ofFn (h w : Nat) (f : Nat → Nat → α) : (ofFn h w f).height = h := by
  simp [height, ofFn]

theorem cell?_eq_getElem (g : Grid α) {i j : Nat} (hi : i < g.rows.size)
    (hj : j < g.rows[i].size) : g.cell? i j = some g.rows[i][j] := by
  simp [cell?, hi, hj]

theorem cell?_ofFn (h w : Nat) (f : Nat → Nat → α) {i j : Nat} (hi : i < h) (hj : j < w) :
    (ofFn h w f).cell? i j = some (f i j) := by
  simp [cell?, ofFn, hi, hj]

@[simp] theorem cell_ofFn [Zero α] (h w : Nat) (f : Nat → Nat → α) {i j : Nat} (hi : i < h)
    (hj : j < w) : (ofFn h w f).cell i j = f i j := by
  rw [cell, cell?_ofFn h w f hi hj]
  rfl

theorem ext_cell? {g g' : Grid α} (hh : g.height = g'.height) (hw : g.width = g'.width)
    (hc : ∀ i j, i < g.height → j < g.width → g.cell? i j = g'.cell? i j) : g = g' := by
  have hrows : g.rows = g'.rows := by
    apply Array.ext hh
    intro i hi hi'
    have hr := g.size_row _ (Array.getElem_mem hi)
    have hr' := g'.size_row _ (Array.getElem_mem hi')
    apply Array.ext (by rw [hr, hr', hw])
    intro j hj hj'
    have hcell := hc i j hi (by omega)
    rw [cell?_eq_getElem g hi hj, cell?_eq_getElem g' hi' hj'] at hcell
    exact Option.some.inj hcell
  cases g
  cases g'
  simp_all

theorem ext_cell [Zero α] {g g' : Grid α} (hh : g.height = g'.height) (hw : g.width = g'.width)
    (hc : ∀ i j, i < g.height → j < g.width → g.cell i j = g'.cell i j) : g = g' := by
  apply ext_cell? hh hw
  intro i j hi hj
  have hr := g.size_row _ (Array.getElem_mem hi)
  have hi' : i < g'.height := by omega
  have hr' := g'.size_row _ (Array.getElem_mem hi')
  have hcell := hc i j hi hj
  rw [cell, cell, cell?_eq_getElem g hi (by omega), cell?_eq_getElem g' hi' (by omega)] at hcell
  rw [cell?_eq_getElem g hi (by omega), cell?_eq_getElem g' hi' (by omega)]
  exact congrArg some hcell

end Grid

end TwoPhase
