import Mathlib.Algebra.Order.Field.Rat
import Mathlib.Tactic.Linarith
import TwoPhase.Proofs.Loops
import TwoPhase.Tableau.Selection

/-!
Selection of pivots without the reading of cells. Inside the grid no read fails, so the choice of
a pivot is a function of the cells; nothing is assumed of the arithmetic for that. Over the
rationals the scan finds the first least candidate.
-/
namespace TwoPhase

variable {α : Type} [Cell α]

/-- The scan names a place that takes part, whatever the comparisons say. -/
theorem scanLeast_some (pre rest : List (Option α)) (best : Option (α × Nat))
    (hb : ∀ v i, best = some (v, i) → pre[i]? = some (some v)) {i : Nat}
    (h : scanLeast pre.length best rest = some i) :
    ∃ v, (pre ++ rest)[i]? = some (some v) := by
  induction rest generalizing pre best with
  | nil =>
    obtain ⟨⟨v, k⟩, hbest, rfl⟩ := Option.map_eq_some_iff.1 h
    exact ⟨v, by simpa using hb v k hbest⟩
  | cons c rest ih =>
    have hlen : pre.length + 1 = (pre ++ [c]).length := by simp
    have hold : ∀ v k, best = some (v, k) → (pre ++ [c])[k]? = some (some v) := by
      intro v k hbest
      have hk := hb v k hbest
      rw [List.getElem?_append_left (List.getElem?_eq_some_iff.1 hk).1, hk]
    rw [List.append_cons]
    cases c with
    | none => exact ih _ best hold (by rw [← hlen]; exact h)
    | some w =>
      rw [scanLeast, hlen] at h
      refine ih _ _ ?_ h
      intro v k hbest
      split at hbest
      · cases hbest
        simp
      · exact hold v k hbest

theorem firstLeast_some {cs : List (Option α)} {i : Nat} (h : firstLeast cs = some i) :
    ∃ v, cs[i]? = some (some v) :=
  scanLeast_some [] cs none (by simp) h

structure LeastAt (cs : List (Option Rat)) (v : Rat) (i : Nat) : Prop where
  get : cs[i]? = some (some v)
  le : ∀ w, some w ∈ cs → v ≤ w
  first : ∀ j < i, ∀ w, cs[j]? = some (some w) → v < w

def BestOf (cs : List (Option Rat)) : Option (Rat × Nat) → Prop
  | none => ∀ w, some w ∉ cs
  | some (v, i) => LeastAt cs v i

theorem BestOf.skip {cs : List (Option Rat)} {best : Option (Rat × Nat)} (h : BestOf cs best) :
    BestOf (cs ++ [none]) best := by
  cases best with
  | none => simpa [BestOf] using h
  | some b =>
    obtain ⟨v, i⟩ := b
    have hi := (List.getElem?_eq_some_iff.1 h.get).1
    refine ⟨?_, ?_, ?_⟩
    · rw [List.getElem?_append_left hi, h.get]
    · simpa using h.le
    · intro j hj w hw
      rw [List.getElem?_append_left (by omega)] at hw
      exact h.first j hj w hw

/-- A candidate replaces the best one so far exactly if it is less. -/
theorem BestOf.compare {cs : List (Option Rat)} {best : Option (Rat × Nat)} (h : BestOf cs best)
    (w : Rat) :
    BestOf (cs ++ [some w]) (if improves w best then some (w, cs.length) else best) := by
  cases best with
  | none =>
    simp only [improves, Cell.isBelowTop, if_true]
    refine ⟨by simp, ?_, ?_⟩
    · intro u hu
      rcases List.mem_append.1 hu with hu | hu
      · exact absurd hu (h u)
      · simp_all
    · intro j hj u hu
      rw [List.getElem?_append_left hj] at hu
      exact absurd (List.mem_of_getElem? hu) (h u)
  | some b =>
    obtain ⟨v, i⟩ := b
    have hi := (List.getElem?_eq_some_iff.1 h.get).1
    by_cases hwv : w < v
    · simp only [improves, Cell.less, hwv, decide_true, if_true]
      refine ⟨by simp, ?_, ?_⟩
      · intro u hu
        rcases List.mem_append.1 hu with hu | hu
        · exact hwv.le.trans (h.le u hu)
        · simp_all
      · intro j hj u hu
        rw [List.getElem?_append_left hj] at hu
        exact hwv.trans_le (h.le u (List.mem_of_getElem? hu))
    · simp only [improves, Cell.less, hwv, decide_false, Bool.false_eq_true, if_false]
      refine ⟨?_, ?_, ?_⟩
      · rw [List.getElem?_append_left hi, h.get]
      · intro u hu
        rcases List.mem_append.1 hu with hu | hu
        · exact h.le u hu
        · have : u = w := by simpa using hu
          linarith
      · intro j hj u hu
        rw [List.getElem?_append_left (by omega)] at hu
        exact h.first j hj u hu

theorem BestOf.scan {pre rest : List (Option Rat)} {best : Option (Rat × Nat)}
    (h : BestOf pre best) :
    ∃ b, BestOf (pre ++ rest) b ∧ scanLeast pre.length best rest = b.map Prod.snd := by
  induction rest generalizing pre best with
  | nil => exact ⟨best, by simpa using h, rfl⟩
  | cons c rest ih =>
    rw [List.append_cons]
    have hlen : pre.length + 1 = (pre ++ [c]).length := by simp
    cases c with
    | none =>
      rw [scanLeast, hlen]
      exact ih h.skip
    | some w =>
      rw [scanLeast, hlen]
      exact ih (h.compare w)

theorem bestOf_firstLeast (cs : List (Option Rat)) :
    ∃ b, BestOf cs b ∧ firstLeast cs = b.map Prod.snd := by
  have hnil : BestOf [] none := by simp [BestOf]
  exact hnil.scan

theorem leastAt_of_firstLeast {cs : List (Option Rat)} {i : Nat} (h : firstLeast cs = some i) :
    ∃ v, LeastAt cs v i := by
  obtain ⟨b, hb, he⟩ := bestOf_firstLeast cs
  obtain ⟨⟨v, k⟩, rfl, rfl⟩ := Option.map_eq_some_iff.1 (he.symm.trans h)
  exact ⟨v, hb⟩

theorem firstLeast_eq_none_iff {cs : List (Option Rat)} :
    firstLeast cs = none ↔ ∀ w, some w ∉ cs := by
  obtain ⟨b, hb, he⟩ := bestOf_firstLeast cs
  cases b with
  | none => exact ⟨fun _ => hb, fun _ => he⟩
  | some b =>
    have hb : LeastAt cs b.1 b.2 := hb
    refine ⟨fun h => ?_, fun h => absurd (List.mem_of_getElem? hb.get) (h b.1)⟩
    rw [he] at h
    cases h

theorem enteringCandidate_eq_some {v w : Rat} :
    enteringCandidate v = some w ↔ 0 < v ∧ v = w := by
  by_cases hv : v ≤ 0
  · simp [enteringCandidate, Cell.isNonpositive, hv, not_lt.2 hv]
  · simp [enteringCandidate, Cell.isNonpositive, hv, not_le.1 hv]

theorem leavingCandidate_eq_some {e b w : Rat} :
    leavingCandidate e b = some w ↔ e ≠ 0 ∧ 0 ≤ b / e ∧ b / e = w := by
  by_cases he : e = 0
  · simp [leavingCandidate, Cell.isZero, he]
  · by_cases hq : b / e < 0
    · simp [leavingCandidate, Cell.isZero, Cell.isNegative, he, hq, not_le.2 hq]
    · simp [leavingCandidate, Cell.isZero, Cell.isNegative, he, hq, not_lt.1 hq]

namespace Grid

def entering (g : Grid α) (row limit : Nat) : Option Nat :=
  firstLeast ((List.range limit).map fun j => enteringCandidate (g.cell row j))

def leaving (g : Grid α) (col rows rhsCol : Nat) : Option Nat :=
  firstLeast ((List.range rows).map fun i => leavingCandidate (g.cell i col) (g.cell i rhsCol))

omit [Cell α] in
theorem read_natCast [Zero α] (g : Grid α) {i j : Nat} (hi : i < g.height) (hj : j < g.width) :
    g.read i j = .ok (g.cell i j) := by
  have hr := g.size_row _ (Array.getElem_mem hi)
  have hcell := g.cell?_eq_getElem (j := j) hi (by omega)
  simp only [read, position?_natCast hi, position?_natCast hj, cell, hcell, Option.elim_some,
    Option.getD_some]

theorem enteringCol_eq (g : Grid α) {row limit : Nat} (hr : row < g.height)
    (hl : limit ≤ g.width) : g.enteringCol row limit = .ok (g.entering row limit) := by
  have hreads := mapM_eq_ok (l := List.range limit) (f := fun j : Nat => g.read row j)
    (g := g.cell row) fun j hj => g.read_natCast hr (by rw [List.mem_range] at hj; omega)
  rw [enteringCol, Int.toNat_natCast, hreads]
  simp only [bind, Except.bind, pure, Except.pure, entering, List.map_map]
  rfl

theorem leavingRow_eq (g : Grid α) {col rows rhsCol : Nat} (hc : col < g.width)
    (hr : rows ≤ g.height) (hb : rhsCol < g.width) :
    g.leavingRow col rows rhsCol = .ok (g.leaving col rows rhsCol) := by
  rw [leavingRow, Int.toNat_natCast, mapM_eq_ok (g := fun i =>
    leavingCandidate (g.cell i col) (g.cell i rhsCol))]
  · rfl
  · intro i hi
    have hi' : i < g.height := by rw [List.mem_range] at hi; omega
    simp only [g.read_natCast hi' hc, g.read_natCast hi' hb, bind, Except.bind, pure, Except.pure]
    by_cases hz : Cell.isZero (g.cell i col)
    · simp [hz, leavingCandidate]
    · simp [hz]

theorem entering_lt {g : Grid α} {row limit c : Nat} (h : g.entering row limit = some c) :
    c < limit := by
  obtain ⟨v, hv⟩ := firstLeast_some h
  simpa using (List.getElem?_eq_some_iff.1 hv).1

theorem leaving_lt {g : Grid α} {col rows rhsCol r : Nat}
    (h : g.leaving col rows rhsCol = some r) : r < rows := by
  obtain ⟨v, hv⟩ := firstLeast_some h
  simpa using (List.getElem?_eq_some_iff.1 hv).1

theorem leaving_isZero {g : Grid α} {col rows rhsCol r : Nat}
    (h : g.leaving col rows rhsCol = some r) : Cell.isZero (g.cell r col) = false := by
  obtain ⟨v, hv⟩ := firstLeast_some h
  by_contra hz
  simp [leaving_lt h, leavingCandidate, hz] at hv

section Rational

variable {g : Grid Rat} {row limit col rows rhsCol : Nat}

theorem entering_pos {c : Nat} (h : g.entering row limit = some c) : 0 < g.cell row c := by
  obtain ⟨v, hv⟩ := leastAt_of_firstLeast h
  have hget := hv.get
  simp only [List.getElem?_map, List.getElem?_range (entering_lt h), Option.map_some,
    Option.some.injEq, enteringCandidate_eq_some] at hget
  exact hget.1

theorem entering_eq_none_iff :
    g.entering row limit = none ↔ ∀ j < limit, g.cell row j ≤ 0 := by
  simp only [entering, firstLeast_eq_none_iff, List.mem_map, List.mem_range,
    enteringCandidate_eq_some, not_exists, not_and]
  constructor
  · intro h j hj
    exact not_lt.1 fun hpos => h _ j hj hpos rfl
  · intro h w j hj hpos
    exact absurd (h j hj) (not_le.2 hpos)

/-- The ratio of the leaving row is nonnegative and least among the nonnegative ratios. -/
theorem leaving_spec {r : Nat} (h : g.leaving col rows rhsCol = some r) :
    g.cell r col ≠ 0 ∧ 0 ≤ g.cell r rhsCol / g.cell r col ∧
      ∀ i < rows, g.cell i col ≠ 0 → 0 ≤ g.cell i rhsCol / g.cell i col →
        g.cell r rhsCol / g.cell r col ≤ g.cell i rhsCol / g.cell i col := by
  obtain ⟨v, hv⟩ := leastAt_of_firstLeast h
  have hget := hv.get
  simp only [List.getElem?_map, List.getElem?_range (leaving_lt h), Option.map_some,
    Option.some.injEq, leavingCandidate_eq_some] at hget
  obtain ⟨hne, hnonneg, rfl⟩ := hget
  refine ⟨hne, hnonneg, ?_⟩
  intro i hi hie hiq
  apply hv.le
  exact List.mem_map.2 ⟨i, List.mem_range.2 hi, leavingCandidate_eq_some.2 ⟨hie, hiq, rfl⟩⟩

theorem ratio_neg_of_leaving_none (h : g.leaving col rows rhsCol = none) {i : Nat} (hi : i < rows)
    (he : g.cell i col ≠ 0) : g.cell i rhsCol / g.cell i col < 0 := by
  by_contra hq
  refine firstLeast_eq_none_iff.1 h (g.cell i rhsCol / g.cell i col) ?_
  exact List.mem_map.2 ⟨i, List.mem_range.2 hi,
    leavingCandidate_eq_some.2 ⟨he, not_lt.1 hq, rfl⟩⟩

end Rational

end Grid

namespace Tableau

def choice (t : Tableau α) (row : Nat) : Option Pivot :=
  (t.cells.entering row t.rhsCol).map fun c =>
    ⟨t.cells.leaving c t.constraintRows t.rhsCol, c⟩

/-- No selection fails whose rows lie inside the grid. -/
theorem selectPivot_eq (t : Tableau α) {row : Nat} (hr : row < t.cells.height)
    (hm : t.constraintRows ≤ t.cells.height) : t.selectPivot row = .ok (t.choice row) := by
  have hw : t.cells.width = t.rhsCol + 1 := t.width_cells
  rw [selectPivot, t.cells.enteringCol_eq hr (by omega)]
  cases hc : t.cells.entering row t.rhsCol with
  | none => simp [choice, hc, bind, Except.bind, pure, Except.pure]
  | some c =>
    have hlt := Grid.entering_lt hc
    have hrow : t.cells.leavingRow c t.constraintRows t.rhsCol =
        .ok (t.cells.leaving c t.constraintRows t.rhsCol) :=
      t.cells.leavingRow_eq (by omega) hm (by omega)
    simp [choice, hc, hrow, bind, Except.bind, pure, Except.pure]

end Tableau

end TwoPhase
