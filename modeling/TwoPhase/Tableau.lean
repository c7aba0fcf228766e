import TwoPhase.Cell
import TwoPhase.Grid
import TwoPhase.Position

/-!
Condensed tableaus: the unit columns of the basic variables are left out, and two lists name
the variables that own the constraint rows and the columns. The rows after the constraint rows
are objective rows, the last column is the right-hand side.

Signed positions address the grid and the two lists separately, as the grid has more rows and
columns than the lists have entries.
-/
namespace TwoPhase

universe u

inductive TableauFault where
  | notTwoDimensional
  | basisLength
  | nonbasisLength
  | zeroPivot (row col : Int)
  | outOfRange
  /-- Rows that cannot be copied one for one, or a negative number of entries. -/
  | shape
  deriving DecidableEq, Repr

def TableauFault.message : TableauFault → Option String
  | .notTwoDimensional => some "tableau data must be 2-D"
  | .basisLength => some "basis must name one variable per constraint row"
  | .nonbasisLength => some "nonbasis must name one variable per non-RHS column"
  | .zeroPivot row col => some s!"pivot element at ({row}, {col}) is zero"
  | .outOfRange => none
  | .shape => none

structure Tableau (α : Type u) where
  cells : Grid α
  basis : List Int
  nonbasis : List Int
  width_cells : cells.width = nonbasis.length + 1

namespace Grid

variable {α : Type u}

def read (g : Grid α) (row col : Int) : Except TableauFault α :=
  match position? row g.height, position? col g.width with
  | some i, some j => (g.cell? i j).elim (.error .outOfRange) .ok
  | _, _ => .error .outOfRange

/-- The Gauss-Jordan exchange at row `r` and column `c`, every cell computed from the old grid. -/
def exchange [Cell α] (g : Grid α) (r c : Nat) : Grid α :=
  let pv := g.cell r c
  ofFn g.height g.width fun i j =>
    if i = r then if j = c then 1 / pv else g.cell r j / pv
    else if j = c then -g.cell i c / pv
    else g.cell i j - g.cell i c * g.cell r j / pv

@[simp] theorem width_exchange [Cell α] (g : Grid α) (r c : Nat) :
    (g.exchange r c).width = g.width := rfl

@[simp] theorem height_exchange [Cell α] (g : Grid α) (r c : Nat) :
    (g.exchange r c).height = g.height := height_ofFn ..

end Grid

namespace Tableau

variable {α : Type u}

def constraintRows (t : Tableau α) : Nat := t.basis.length

def rhsCol (t : Tableau α) : Nat := t.nonbasis.length

def ofGrid? (cells : Grid α) (basis nonbasis : List Int) (constraintRows : Int) :
    Except TableauFault (Tableau α) :=
  if (basis.length : Int) ≠ constraintRows then .error .basisLength
  else if h : cells.width = nonbasis.length + 1 then .ok ⟨cells, basis, nonbasis, h⟩
  else .error .nonbasisLength

/-- Exchanges the variables of a row and a column. The grid is pivoted before the lists are
addressed, so a position that the grid has and a list lacks leaves the grid pivoted. -/
def pivot [Cell α] (t : Tableau α) (row col : Int) : Tableau α × Option TableauFault :=
  match position? row t.cells.height, position? col t.cells.width with
  | some r, some c =>
    if Cell.isZero (t.cells.cell r c) then (t, some (.zeroPivot row col))
    else
      let cells := t.cells.exchange r c
      match position? row t.basis.length, position? col t.nonbasis.length with
      | some i, some j =>
        ({ cells
           basis := t.basis.set i (t.nonbasis[j]?.getD 0)
           nonbasis := t.nonbasis.set j (t.basis[i]?.getD 0)
           width_cells := by simp [cells, t.width_cells] }, none)
      | _, _ => ({ t with cells, width_cells := t.width_cells }, some .outOfRange)
  | _, _ => (t, some .outOfRange)

def keptCols (t : Tableau α) (threshold : Int) : List Nat :=
  (List.range t.nonbasis.length).filter fun j => (t.nonbasis[j]?.getD 0) ≤ threshold

/-- Keeps the columns whose variable does not exceed the threshold and the right-hand side,
the constraint rows and the last row. A single row is repeated as often as there are basic
variables; other missing rows are an error. -/
def dropColumnsAbove [Zero α] (t : Tableau α) (threshold : Int) :
    Except TableauFault (Tableau α) :=
  let kept := t.keptCols threshold
  let cols := (kept ++ [t.rhsCol]).toArray
  let m := t.constraintRows
  let h := t.cells.height
  if h = 0 then .error (if m = 0 then .outOfRange else .shape)
  else if h < m ∧ h ≠ 1 then .error .shape
  else
    .ok
      { cells := Grid.ofFn (m + 1) (kept.length + 1) fun i j =>
          t.cells.cell (if i = m then h - 1 else if h < m then 0 else i) (cols[j]?.getD 0)
        basis := t.basis
        nonbasis := kept.map fun j => t.nonbasis[j]?.getD 0
        width_cells := by simp }

/-- The values of the variables `1 … n`: the right-hand side of the row that a variable owns,
and zero otherwise. A variable below one counts back from `n`. -/
def solution [Cell α] (t : Tableau α) (n : Int) : Except TableauFault (List α) :=
  if n < 0 then .error .shape
  else
    t.basis.zipIdx.foldlM
      (fun x (var, i) => do
        if var ≤ n then
          let value ← t.cells.read i (-1)
          match position? (var - 1) x.length with
          | some k => pure (x.set k value)
          | none => .error .outOfRange
        else pure x)
      (List.replicate n.toNat 0)

end Tableau

end TwoPhase
