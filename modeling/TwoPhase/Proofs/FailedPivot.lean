import TwoPhase.Proofs.Exchange

/-!
Pivots that fail. A position is looked up in the grid before anything changes, and in the two lists
only after the grid has been exchanged. So a pivot outside the grid or at a zero changes nothing,
and a pivot at another cell whose row or column owns no variable leaves the lists as they were and
the grid exchanged. Nothing is assumed of the arithmetic, of the shape or of the signs of the
positions.
-/
namespace TwoPhase

namespace Tableau

variable {α : Type} {t t' : Tableau α} {row col : Int} {r c : Nat} {fault : TableauFault}

structure Names (t : Tableau α) (row col : Int) (r c : Nat) : Prop where
  row_eq : position? row t.cells.height = some r
  col_eq : position? col t.cells.width = some c

theorem Names.unique (h : t.Names row col r c) {r' c' : Nat} (h' : t.Names row col r' c') :
    r' = r ∧ c' = c :=
  ⟨Option.some.inj (h'.row_eq.symm.trans h.row_eq), Option.some.inj (h'.col_eq.symm.trans h.col_eq)⟩

variable [Cell α]

/-- A cell that the grid can be exchanged at, in a row or a column that owns no variable. -/
structure Overreaches (t : Tableau α) (row col : Int) (r c : Nat) : Prop
    extends t.Names row col r c where
  isZero : Cell.isZero (t.cells.cell r c) = false
  unowned : row < -t.constraintRows ∨ t.constraintRows ≤ row ∨ col < -t.rhsCol ∨ t.rhsCol ≤ col

def withExchange (t : Tableau α) (r c : Nat) : Tableau α where
  cells := t.cells.exchange r c
  basis := t.basis
  nonbasis := t.nonbasis
  width_cells := t.width_cells

/-- The ways in which a pivot fails, and what it leaves. -/
inductive Failure (t : Tableau α) (row col : Int) : Tableau α → TableauFault → Prop
  | outside (h : ∀ r c, ¬t.Names row col r c) : Failure t row col t .outOfRange
  | zero (r c : Nat) (h : t.Names row col r c) (hz : Cell.isZero (t.cells.cell r c) = true) :
      Failure t row col t (.zeroPivot row col)
  | overreach (r c : Nat) (h : t.Overreaches row col r c) :
      Failure t row col (t.withExchange r c) .outOfRange

theorem pivot_of_not_names (h : ∀ r c, ¬t.Names row col r c) :
    t.pivot row col = (t, some .outOfRange) := by
  cases hr : position? row t.cells.height with
  | none => simp only [pivot, hr]
  | some r =>
    cases hc : position? col t.cells.width with
    | none => simp only [pivot, hr, hc]
    | some c => exact absurd ⟨hr, hc⟩ (h r c)

theorem Names.pivot_of_isZero (h : t.Names row col r c)
    (hz : Cell.isZero (t.cells.cell r c) = true) :
    t.pivot row col = (t, some (.zeroPivot row col)) := by
  simp only [pivot, h.row_eq, h.col_eq, hz, if_true]

theorem Overreaches.pivot_eq (h : t.Overreaches row col r c) :
    t.pivot row col = (t.withExchange r c, some .outOfRange) := by
  have hlists : position? row t.basis.length = none ∨ position? col t.nonbasis.length = none := by
    rw [position?_eq_none_iff, position?_eq_none_iff]
    have := h.unowned
    simp only [constraintRows, rhsCol] at this
    omega
  simp only [pivot, h.row_eq, h.col_eq, h.isZero, Bool.false_eq_true, if_false]
  rcases hlists with hnone | hnone
  · simp only [hnone]
    rfl
  · cases position? row t.basis.length with
    | none => rfl
    | some i =>
      simp only [hnone]
      rfl

/-- A pivot at a cell of the grid that is not zero fails only if a list lacks its position. -/
theorem Names.overreaches (h : t.Names row col r c) (hz : Cell.isZero (t.cells.cell r c) = false)
    (hfault : (t.pivot row col).2 = some fault) : t.Overreaches row col r c := by
  refine ⟨h, hz, ?_⟩
  by_contra howned
  have hi : (position? row t.basis.length).isSome := by
    rw [position?_isSome_iff]
    simp only [constraintRows, rhsCol] at howned
    omega
  have hj : (position? col t.nonbasis.length).isSome := by
    rw [position?_isSome_iff]
    simp only [constraintRows, rhsCol] at howned
    omega
  obtain ⟨i, hi⟩ := Option.isSome_iff_exists.1 hi
  obtain ⟨j, hj⟩ := Option.isSome_iff_exists.1 hj
  simp only [pivot, h.row_eq, h.col_eq, hz, Bool.false_eq_true, if_false, hi, hj] at hfault
  cases hfault

theorem pivot_eq_failure_iff :
    t.pivot row col = (t', some fault) ↔ t.Failure row col t' fault := by
  constructor
  · intro h
    by_cases hnames : ∃ r c, t.Names row col r c
    · obtain ⟨r, c, hnames⟩ := hnames
      cases hz : Cell.isZero (t.cells.cell r c) with
      | true =>
        rw [hnames.pivot_of_isZero hz] at h
        cases h
        exact .zero r c hnames hz
      | false =>
        have hover := hnames.overreaches hz (congrArg Prod.snd h)
        rw [hover.pivot_eq] at h
        cases h
        exact .overreach r c hover
    · have hnames : ∀ r c, ¬t.Names row col r c := fun r c hrc => hnames ⟨r, c, hrc⟩
      rw [pivot_of_not_names hnames] at h
      cases h
      exact .outside hnames
  · intro h
    cases h with
    | outside h => exact pivot_of_not_names h
    | zero r c h hz => exact h.pivot_of_isZero hz
    | overreach r c h => exact h.pivot_eq

/-- A pivot that fails leaves both lists as they were. It changes the grid exactly if the grid has
the cell, a list lacks its position, and the exchange there is not the grid itself; every such pivot
fails, and the grid becomes the exchange. -/
theorem failed_pivot_changes_iff (t : Tableau α) (row col : Int) :
    (∀ t' fault, t.pivot row col = (t', some fault) → t'.basis = t.basis ∧
      t'.nonbasis = t.nonbasis ∧
      (t'.cells ≠ t.cells ↔
        ∃ r c, t.Overreaches row col r c ∧ t.cells.exchange r c ≠ t.cells)) ∧
    ∀ r c, t.Overreaches row col r c →
      t.pivot row col = (t.withExchange r c, some .outOfRange) := by
  refine ⟨fun t' fault h => ?_, fun r c h => h.pivot_eq⟩
  cases pivot_eq_failure_iff.1 h with
  | outside hnames =>
    refine ⟨rfl, rfl, iff_of_false (fun hne => hne rfl) ?_⟩
    rintro ⟨r, c, hover, -⟩
    exact hnames r c hover.toNames
  | zero r c hnames hz =>
    refine ⟨rfl, rfl, iff_of_false (fun hne => hne rfl) ?_⟩
    rintro ⟨r', c', hover, -⟩
    obtain ⟨rfl, rfl⟩ := hnames.unique hover.toNames
    rw [hover.isZero] at hz
    cases hz
  | overreach r c hover =>
    refine ⟨rfl, rfl, fun hne => ⟨r, c, hover, hne⟩, ?_⟩
    rintro ⟨r', c', hover', hne⟩
    obtain ⟨rfl, rfl⟩ := hover.unique hover'.toNames
    exact hne

/-- A failing pivot in the objective row, which no variable owns, exchanges the grid. -/
theorem failed_pivot_in_objective_row :
    let t : Tableau Float :=
      { cells := Grid.ofFn 2 2 fun i j => ([[1, 2], [2, 4]][i]?.getD [])[j]?.getD 0
        basis := [2]
        nonbasis := [1]
        width_cells := rfl }
    ∃ t', t.pivot 1 0 = (t', some .outOfRange) ∧ t'.cells ≠ t.cells := by
  intro t
  refine ⟨(t.pivot 1 0).1, Prod.ext rfl (by decide +kernel), fun h => ?_⟩
  have hcell := congrArg (fun g => (g.cell 0 1).toBits) h
  revert hcell
  decide +kernel

end Tableau

end TwoPhase
