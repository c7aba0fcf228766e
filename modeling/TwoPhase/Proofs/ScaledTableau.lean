import Mathlib.Tactic.Ring
import TwoPhase.Proofs.BasicSolution
import TwoPhase.Proofs.CompactedPivots
import TwoPhase.Proofs.Trail

/-!
Tableaus in other units. The last row is multiplied by a factor for the costs and the last column by
one for the right-hand sides, and the other cells stay as they are. Pivots and compaction keep the
proportion, since no pivot is made in the last row or in the last column. The factors are positive,
so costs and ratios keep their signs and their order, and the next pivot is the same.
-/
namespace TwoPhase

structure Scale where
  cost : Rat
  rhs : Rat
  cost_pos : 0 < cost
  rhs_pos : 0 < rhs

section Selection

variable {a : Rat} (ha : 0 < a)
include ha

theorem scanLeast_mul (k : Nat) (best : Option (Rat × Nat)) (cs : List (Option Rat)) :
    scanLeast k (best.map fun b => (a * b.1, b.2)) (cs.map (Option.map (a * ·))) =
      scanLeast k best cs := by
  induction cs generalizing k best with
  | nil => simp [scanLeast, Function.comp_def]
  | cons c cs ih =>
    cases c with
    | none => exact ih (k + 1) best
    | some v =>
      have himproves : improves (a * v) (best.map fun b => (a * b.1, b.2)) = improves v best := by
        cases best with
        | none => rfl
        | some b => simp [improves, Cell.less, mul_lt_mul_iff_right₀ ha]
      simp only [List.map_cons, Option.map_some, scanLeast, himproves]
      rw [← ih]
      split <;> rfl

theorem firstLeast_mul (cs : List (Option Rat)) :
    firstLeast (cs.map (Option.map (a * ·))) = firstLeast cs :=
  scanLeast_mul ha 0 none cs

theorem enteringCandidate_mul (v : Rat) :
    enteringCandidate (a * v) = (enteringCandidate v).map (a * ·) := by
  by_cases hv : v ≤ 0
  · simp [enteringCandidate, Cell.isNonpositive, hv, mul_nonpos_of_nonneg_of_nonpos ha.le hv]
  · have hpos : ¬a * v ≤ 0 := not_le.2 (mul_pos ha (not_le.1 hv))
    simp [enteringCandidate, Cell.isNonpositive, hv, hpos]

theorem leavingCandidate_mul (entry rhs : Rat) :
    leavingCandidate entry (a * rhs) = (leavingCandidate entry rhs).map (a * ·) := by
  by_cases he : entry = 0
  · simp [leavingCandidate, Cell.isZero, he]
  · have hratio : a * rhs / entry = a * (rhs / entry) := mul_div_assoc a rhs entry
    have hsign : a * (rhs / entry) < 0 ↔ rhs / entry < 0 := Rat.mul_neg_iff_of_pos_left ha
    simp only [leavingCandidate, Cell.isZero, he, decide_false, Bool.false_eq_true, if_false,
      Cell.isNegative, decide_eq_true_eq, hratio, hsign]
    split <;> rfl

namespace Grid

variable {g g' : Grid Rat}

theorem entering_mul {row limit : Nat} (h : ∀ j < limit, g'.cell row j = a * g.cell row j) :
    g'.entering row limit = g.entering row limit := by
  rw [entering, entering,
    ← firstLeast_mul ha ((List.range limit).map fun j => enteringCandidate (g.cell row j)),
    List.map_map]
  refine congrArg firstLeast (List.map_congr_left fun j hj => ?_)
  rw [h j (List.mem_range.1 hj), enteringCandidate_mul ha]
  rfl

theorem leaving_mul {col rows rhsCol : Nat} (hcol : ∀ i < rows, g'.cell i col = g.cell i col)
    (hrhs : ∀ i < rows, g'.cell i rhsCol = a * g.cell i rhsCol) :
    g'.leaving col rows rhsCol = g.leaving col rows rhsCol := by
  rw [leaving, leaving,
    ← firstLeast_mul ha ((List.range rows).map fun i =>
      leavingCandidate (g.cell i col) (g.cell i rhsCol)),
    List.map_map]
  refine congrArg firstLeast (List.map_congr_left fun i hi => ?_)
  have hi := List.mem_range.1 hi
  rw [hcol i hi, hrhs i hi, leavingCandidate_mul ha]
  rfl

end Grid

end Selection

namespace Scale

variable (k : Scale)

def row (height i : Nat) : Rat := if i + 1 = height then k.cost else 1

def col (rhsCol j : Nat) : Rat := if j = rhsCol then k.rhs else 1

theorem row_pos (height i : Nat) : 0 < k.row height i := by
  rw [row]
  split
  · exact k.cost_pos
  · exact one_pos

theorem col_pos (rhsCol j : Nat) : 0 < k.col rhsCol j := by
  rw [col]
  split
  · exact k.rhs_pos
  · exact one_pos

theorem row_eq_one {height i : Nat} (hi : i + 1 < height) : k.row height i = 1 := if_neg hi.ne

theorem col_eq_one {rhsCol j : Nat} (hj : j < rhsCol) : k.col rhsCol j = 1 := if_neg hj.ne

theorem col_self (rhsCol : Nat) : k.col rhsCol rhsCol = k.rhs := if_pos rfl

end Scale

namespace Tableau

def scaled (t : Tableau Rat) (k : Scale) : Tableau Rat where
  cells := Grid.ofFn t.cells.height t.cells.width fun i j =>
    k.row t.cells.height i * k.col t.rhsCol j * t.cells.cell i j
  basis := t.basis
  nonbasis := t.nonbasis
  width_cells := (Grid.width_ofFn ..).trans t.width_cells

variable {t t' : Tableau Rat} {k : Scale} {r c i j : Nat}

@[simp] theorem constraintRows_scaled : (t.scaled k).constraintRows = t.constraintRows := rfl

@[simp] theorem rhsCol_scaled : (t.scaled k).rhsCol = t.rhsCol := rfl

@[simp] theorem height_cells_scaled : (t.scaled k).cells.height = t.cells.height :=
  Grid.height_ofFn ..

@[simp] theorem width_cells_scaled : (t.scaled k).cells.width = t.cells.width := rfl

@[simp] theorem rowVar_scaled : (t.scaled k).rowVar i = t.rowVar i := rfl

@[simp] theorem colVar_scaled : (t.scaled k).colVar j = t.colVar j := rfl

theorem cell_scaled (hi : i < t.cells.height) (hj : j ≤ t.rhsCol) :
    (t.scaled k).cells.cell i j =
      k.row t.cells.height i * k.col t.rhsCol j * t.cells.cell i j := by
  have hwidth : t.cells.width = t.rhsCol + 1 := t.width_cells
  exact Grid.cell_ofFn _ _ _ hi (by omega)

/-- In a constraint row only the right-hand side is in other units. -/
theorem cell_scaled_row (ht : t.HasObjective) (hi : i < t.constraintRows) (hj : j < t.rhsCol) :
    (t.scaled k).cells.cell i j = t.cells.cell i j := by
  have ht : t.constraintRows < t.cells.height := ht
  rw [cell_scaled (by omega) hj.le, k.row_eq_one (by omega), k.col_eq_one hj, one_mul, one_mul]

theorem rhs_scaled_row (ht : t.HasObjective) (hi : i < t.constraintRows) :
    (t.scaled k).cells.cell i t.rhsCol = k.rhs * t.cells.cell i t.rhsCol := by
  have ht : t.constraintRows < t.cells.height := ht
  rw [cell_scaled (by omega) le_rfl, k.row_eq_one (by omega), k.col_self, one_mul]

theorem objective_scaled (ht : t.HasObjective) :
    (t.scaled k).objective = k.row t.cells.height t.constraintRows * k.rhs * t.objective := by
  rw [objective, objective, constraintRows_scaled, rhsCol_scaled, cell_scaled ht le_rfl, k.col_self]

theorem choice_scaled (ht : t.HasObjective) :
    (t.scaled k).choice (t.scaled k).constraintRows = t.choice t.constraintRows := by
  have hentering : (t.scaled k).cells.entering t.constraintRows t.rhsCol =
      t.cells.entering t.constraintRows t.rhsCol := by
    refine Grid.entering_mul (k.row_pos t.cells.height t.constraintRows) fun j hj => ?_
    rw [cell_scaled ht hj.le, k.col_eq_one hj, mul_one]
  rw [choice, choice, constraintRows_scaled, rhsCol_scaled, hentering]
  cases hc : t.cells.entering t.constraintRows t.rhsCol with
  | none => rfl
  | some c =>
    have hleaving : (t.scaled k).cells.leaving c t.constraintRows t.rhsCol =
        t.cells.leaving c t.constraintRows t.rhsCol :=
      Grid.leaving_mul k.rhs_pos (fun i hi => cell_scaled_row ht hi (Grid.entering_lt hc))
        fun i hi => rhs_scaled_row ht hi
    rw [Option.map_some, Option.map_some, hleaving]

theorem exchange_scaled (ht : t.HasObjective) (h : t.Pivotal r c) :
    (t.scaled k).exchange r c = (t.exchange r c).scaled k := by
  have hm : t.constraintRows < t.cells.height := ht
  have hr : r < t.cells.height := h.row.trans hm
  have hwidth : t.cells.width = t.rhsCol + 1 := t.width_cells
  refine Tableau.ext (Grid.ext_cell (by simp) rfl fun i j hi hj => ?_) rfl rfl
  replace hi : i < t.cells.height := by simpa using hi
  replace hj : j ≤ t.rhsCol := Nat.le_of_lt_succ (hj.trans_eq hwidth)
  have hrow : k.row t.cells.height r = 1 := k.row_eq_one (by have := h.row; omega)
  have hcol : k.col t.rhsCol c = 1 := k.col_eq_one h.col
  rw [cell_exchange _ r c (by simpa using hi) (by simpa using hj),
    cell_scaled (t := t.exchange r c) (by simpa using hi) (by simpa using hj),
    t.cell_exchange r c hi hj, cell_scaled hr h.col.le, cell_scaled hr hj,
    cell_scaled hi h.col.le, cell_scaled hi hj, height_cells_exchange, rhsCol_exchange, hrow, hcol]
  split
  · next hir =>
    split
    · next hjc =>
      subst hir hjc
      rw [hrow, hcol]
      ring
    · subst hir
      rw [hrow]
      ring
  · split
    · next hjc =>
      subst hjc
      rw [hcol]
      ring
    · ring

theorem compact_scaled (ht : t.HasObjective) (threshold : Int) :
    (t.scaled k).compact threshold = (t.compact threshold).scaled k := by
  have hm : t.constraintRows < t.cells.height := ht
  refine Tableau.ext (Grid.ext_cell (by simp) rfl fun i j hi hj => ?_) rfl rfl
  replace hi : i ≤ t.constraintRows := Nat.le_of_lt_succ (by simpa using hi)
  replace hj : j ≤ (t.keptCols threshold).length := Nat.le_of_lt_succ hj
  have hsource : (t.scaled k).sourceRow i = t.sourceRow i := by
    rw [sourceRow, sourceRow, constraintRows_scaled, height_cells_scaled]
  have hsource' : (t.scaled k).sourceCol threshold j = t.sourceCol threshold j := rfl
  -- the last row and the last column come from the last ones
  have hrow : k.row t.cells.height (t.sourceRow i) = k.row (t.constraintRows + 1) i := by
    simp only [Scale.row, sourceRow]
    congr 1
    split <;> simp <;> omega
  have hcol : k.col t.rhsCol (t.sourceCol threshold j) = k.col (t.compact threshold).rhsCol j := by
    simp only [Scale.col, sourceCol_eq_rhsCol_iff hj, rhsCol_compact]
  rw [cell_compact_source (t := t.scaled k) hi hj, hsource, hsource',
    cell_scaled (sourceRow_lt ht hi) (sourceCol_le hj),
    cell_scaled (by simpa using Nat.lt_succ_of_le hi) (by rwa [rhsCol_compact]),
    cell_compact_source hi hj, height_cells_compact, hrow, hcol]

/-- Tableaus share their cells in new units exactly if they share them in the old ones. -/
theorem cells_scaled_inj : (t.scaled k).cells = (t'.scaled k).cells ↔ t.cells = t'.cells := by
  constructor
  · intro h
    have hheight : t.cells.height = t'.cells.height := by
      rw [← t.height_cells_scaled (k := k), h, height_cells_scaled]
    have hwidth : t.cells.width = t'.cells.width := by
      rw [← t.width_cells_scaled (k := k), h, width_cells_scaled]
    have hrhs : (t.scaled k).rhsCol = (t'.scaled k).rhsCol := rhsCol_congr h
    rw [rhsCol_scaled, rhsCol_scaled] at hrhs
    refine Grid.ext_cell hheight hwidth fun i j hi hj => ?_
    have hj : j ≤ t.rhsCol := Nat.le_of_lt_succ (hj.trans_eq t.width_cells)
    have hcell : (t.scaled k).cells.cell i j = (t'.scaled k).cells.cell i j := by rw [h]
    rw [cell_scaled hi hj, cell_scaled (hheight ▸ hi) (hrhs ▸ hj), ← hheight, ← hrhs] at hcell
    exact mul_left_cancel₀ (mul_pos (k.row_pos _ _) (k.col_pos _ _)).ne' hcell
  · intro h
    simp only [scaled, h, rhsCol_congr h]

theorem basicValue_scaled (ht : t.HasObjective) (n : Int) :
    (t.scaled k).basicValue n = k.rhs * t.basicValue n := by
  have hbasis : (t.scaled k).basis = t.basis := rfl
  rw [basicValue, basicValue, hbasis, rhsCol_scaled]
  cases hn : t.basis.idxOf? n with
  | none => exact (mul_zero _).symm
  | some i => exact rhs_scaled_row ht (List.idxOf?_eq_some_iff.1 hn).1

end Tableau

end TwoPhase
