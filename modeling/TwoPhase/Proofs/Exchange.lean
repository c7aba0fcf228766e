import Mathlib.Data.List.Basic
import Mathlib.Data.List.Nodup
import Mathlib.Logic.Relation
import TwoPhase.Tableau.PhaseOne

/-!
What a pivot does to a tableau: one exchange of cells and of two variables. Nothing is assumed
of the arithmetic. The variables of rows and columns are permuted, so every tableau that pivots
reach arranges the variables of the first one, however the cells were chosen.
-/
namespace TwoPhase

variable {α : Type}

attribute [ext] Tableau

namespace Tableau

def rowVar (t : Tableau α) (i : Nat) : Int := t.basis[i]?.getD 0

def colVar (t : Tableau α) (j : Nat) : Int := t.nonbasis[j]?.getD 0

def labels (t : Tableau α) : List Int := t.basis ++ t.nonbasis

theorem rowVar_mem {t : Tableau α} {i : Nat} (hi : i < t.constraintRows) :
    t.rowVar i ∈ t.basis := by
  rw [rowVar, List.getElem?_eq_getElem hi]
  exact List.getElem_mem hi

theorem colVar_mem {t : Tableau α} {j : Nat} (hj : j < t.rhsCol) : t.colVar j ∈ t.nonbasis := by
  rw [colVar, List.getElem?_eq_getElem hj]
  exact List.getElem_mem hj

theorem exists_rowVar {t : Tableau α} {k : Int} (hk : k ∈ t.basis) :
    ∃ i < t.constraintRows, t.rowVar i = k := by
  obtain ⟨i, hi, rfl⟩ := List.getElem_of_mem hk
  exact ⟨i, hi, by simp [rowVar, hi]⟩

theorem map_colVar_range (t : Tableau α) : (List.range t.rhsCol).map t.colVar = t.nonbasis := by
  apply List.ext_getElem (by simp [rhsCol])
  intro j hj hj'
  simp [colVar, hj']

section Exchange

variable [Cell α]

def exchange (t : Tableau α) (r c : Nat) : Tableau α where
  cells := t.cells.exchange r c
  basis := t.basis.set r (t.colVar c)
  nonbasis := t.nonbasis.set c (t.rowVar r)
  width_cells := by simp [t.width_cells]

@[simp] theorem constraintRows_exchange (t : Tableau α) (r c : Nat) :
    (t.exchange r c).constraintRows = t.constraintRows := List.length_set

@[simp] theorem rhsCol_exchange (t : Tableau α) (r c : Nat) :
    (t.exchange r c).rhsCol = t.rhsCol := List.length_set

@[simp] theorem height_cells_exchange (t : Tableau α) (r c : Nat) :
    (t.exchange r c).cells.height = t.cells.height := Grid.height_exchange ..

/-- A pivot inside the constraint rows and the columns left of the right-hand side is an
exchange. -/
theorem pivot_eq_exchange (t : Tableau α) {r c : Nat} (hr : r < t.constraintRows)
    (hh : r < t.cells.height) (hc : c < t.rhsCol)
    (hz : Cell.isZero (t.cells.cell r c) = false) : t.pivot r c = (t.exchange r c, none) := by
  have hw : t.cells.width = t.rhsCol + 1 := t.width_cells
  simp only [pivot, position?_natCast hh,
    position?_natCast (show c < t.cells.width by omega), hz, Bool.false_eq_true, if_false,
    position?_natCast (show r < t.basis.length from hr),
    position?_natCast (show c < t.nonbasis.length from hc)]
  rfl

theorem cell_exchange (t : Tableau α) (r c : Nat) {i j : Nat} (hi : i < t.cells.height)
    (hj : j ≤ t.rhsCol) :
    (t.exchange r c).cells.cell i j =
      if i = r then
        if j = c then 1 / t.cells.cell r c else t.cells.cell r j / t.cells.cell r c
      else if j = c then -t.cells.cell i c / t.cells.cell r c
      else t.cells.cell i j - t.cells.cell i c * t.cells.cell r j / t.cells.cell r c := by
  have hw : t.cells.width = t.rhsCol + 1 := t.width_cells
  exact Grid.cell_ofFn _ _ _ hi (by omega)

theorem rowVar_exchange (t : Tableau α) {r c : Nat} (hr : r < t.constraintRows) (i : Nat) :
    (t.exchange r c).rowVar i = if i = r then t.colVar c else t.rowVar i := by
  have hr' : r < t.basis.length := hr
  by_cases hi : i = r
  · subst hi
    simp [rowVar, exchange, hr']
  · simp [rowVar, exchange, List.getElem?_set_ne (Ne.symm hi), hi]

theorem colVar_exchange (t : Tableau α) {r c : Nat} (hc : c < t.rhsCol) (j : Nat) :
    (t.exchange r c).colVar j = if j = c then t.rowVar r else t.colVar j := by
  have hc' : c < t.nonbasis.length := hc
  by_cases hj : j = c
  · subst hj
    simp [colVar, exchange, hc']
  · simp [colVar, exchange, List.getElem?_set_ne (Ne.symm hj), hj]

end Exchange

end Tableau

theorem set_append_set_perm {β : Type} [DecidableEq β] {xs ys : List β} {i j : Nat}
    (hi : i < xs.length) (hj : j < ys.length) :
    (xs.set i ys[j] ++ ys.set j xs[i]).Perm (xs ++ ys) := by
  rw [List.perm_iff_count]
  intro a
  have hle (zs : List β) (k : Nat) (hk : k < zs.length) :
      (if zs[k] = a then 1 else 0) ≤ zs.count a := by
    split
    · next h => exact List.count_pos_iff.2 (h ▸ List.getElem_mem hk)
    · exact Nat.zero_le _
  have hx := hle xs i hi
  have hy := hle ys j hj
  simp only [List.count_append, List.count_set hi, List.count_set hj, beq_iff_eq]
  omega

namespace Tableau

theorem labels_exchange_perm [Cell α] (t : Tableau α) {r c : Nat} (hr : r < t.constraintRows)
    (hc : c < t.rhsCol) : (t.exchange r c).labels.Perm t.labels := by
  have hr' : r < t.basis.length := hr
  have hc' : c < t.nonbasis.length := hc
  simpa [labels, exchange, rowVar, colVar, hr', hc'] using set_append_set_perm hr' hc'

end Tableau

theorem nodup_varRange (first count : Nat) : (varRange first count).Nodup := by
  refine List.Nodup.map ?_ List.nodup_range
  intro a b hab
  have : ((first + a : Nat) : Int) = (first + b : Nat) := hab
  omega

theorem mem_varRange {first count : Nat} {k : Int} :
    k ∈ varRange first count ↔ first ≤ k ∧ k < first + count := by
  simp only [varRange, List.mem_map, List.mem_range]
  constructor
  · rintro ⟨i, hi, rfl⟩
    omega
  · rintro ⟨h₁, h₂⟩
    exact ⟨(k - first).toNat, by omega, by omega⟩

theorem varRange_append (first a b : Nat) :
    varRange first a ++ varRange (first + a) b = varRange first (a + b) := by
  simp [varRange, List.range_add, Nat.add_assoc]

namespace Tableau

variable [Cell α] {t t' : Tableau α} {r c : Nat}

/-- A cell to pivot at: in a constraint row, left of the right-hand side, and not testing as
zero. -/
structure Pivotal (t : Tableau α) (r c : Nat) : Prop where
  row : r < t.constraintRows
  col : c < t.rhsCol
  isZero : Cell.isZero (t.cells.cell r c) = false

theorem Pivotal.pivot_eq (h : t.Pivotal r c) (hm : t.constraintRows ≤ t.cells.height) :
    t.pivot r c = (t.exchange r c, none) :=
  t.pivot_eq_exchange h.row (Nat.lt_of_lt_of_le h.row hm) h.col h.isZero

def ExchangesTo (t t' : Tableau α) : Prop := ∃ r c, t.Pivotal r c ∧ t.exchange r c = t'

abbrev Exchanges : Tableau α → Tableau α → Prop := Relation.ReflTransGen ExchangesTo

def PivotsTo (t t' : Tableau α) : Prop := ∃ r c : Nat, t.Pivotal r c ∧ (t.pivot r c).1 = t'

abbrev Pivots : Tableau α → Tableau α → Prop := Relation.ReflTransGen PivotsTo

theorem Exchanges.constraintRows (h : Exchanges t t') :
    t'.constraintRows = t.constraintRows := by
  induction h with
  | refl => rfl
  | tail _ hstep ih =>
    obtain ⟨r, c, -, rfl⟩ := hstep
    rw [constraintRows_exchange, ih]

theorem Exchanges.height (h : Exchanges t t') : t'.cells.height = t.cells.height := by
  induction h with
  | refl => rfl
  | tail _ hstep ih =>
    obtain ⟨r, c, -, rfl⟩ := hstep
    rw [height_cells_exchange, ih]

theorem Exchanges.labels_perm (h : Exchanges t t') : t'.labels.Perm t.labels := by
  induction h with
  | refl => exact List.Perm.refl _
  | tail _ hstep ih =>
    obtain ⟨r, c, hpivotal, rfl⟩ := hstep
    exact (labels_exchange_perm _ hpivotal.row hpivotal.col).trans ih

/-- Where the grid has all constraint rows, pivots at pivotal cells are exchanges. -/
theorem Pivots.exchanges (hm : t.constraintRows ≤ t.cells.height) (h : Pivots t t') :
    Exchanges t t' := by
  induction h with
  | refl => exact .refl
  | @tail t₁ t₂ _ hstep ih =>
    obtain ⟨r, c, hpivotal, rfl⟩ := hstep
    have hm' : t₁.constraintRows ≤ t₁.cells.height := by
      rw [ih.constraintRows, ih.height]
      exact hm
    rw [hpivotal.pivot_eq hm']
    exact ih.tail ⟨r, c, hpivotal, rfl⟩

end Tableau

/-- The artificial problem uses each variable once. -/
theorem labels_phaseOne_perm [Cell α] (p : LinearProgram α) :
    (Tableau.phaseOne p).labels.Perm (varRange 1 (p.numCosts + p.constraintRows)) := by
  rw [← varRange_append, Nat.add_comm 1]
  exact List.perm_append_comm

end TwoPhase
