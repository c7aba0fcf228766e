import TwoPhase.Proofs.Selection

/-!
The rule of pivot selection, over the rationals. Both scans find the lowest of the places where a
value is least among those that take part: the columns of positive cost, and the constraint rows of
nonnegative ratio, whatever the sign of the entry. The rule says of every tableau and every signed
row exactly which pivot is selected. That the rows lie inside the grid is concluded and not assumed.
-/
namespace TwoPhase

/-- The lowest of the places below `n` where the value is least among those that take part. -/
structure FirstLeast (takesPart : Nat → Prop) (value : Nat → Rat) (n i : Nat) : Prop where
  lt : i < n
  mem : takesPart i
  le : ∀ k < n, takesPart k → value i ≤ value k
  first : ∀ k < n, takesPart k → value k = value i → i ≤ k

theorem LeastAt.unique {cs : List (Option Rat)} {v w : Rat} {i k : Nat} (h : LeastAt cs v i)
    (h' : LeastAt cs w k) : i = k := by
  have hv := h.le w (List.mem_of_getElem? h'.get)
  have hw := h'.le v (List.mem_of_getElem? h.get)
  rcases Nat.lt_trichotomy i k with hlt | heq | hgt
  · exact absurd (h'.first i hlt v h.get) (not_lt.2 hv)
  · exact heq
  · exact absurd (h.first k hgt w h'.get) (not_lt.2 hw)

theorem firstLeast_eq_some_iff {cs : List (Option Rat)} {i : Nat} :
    firstLeast cs = some i ↔ ∃ v, LeastAt cs v i := by
  refine ⟨leastAt_of_firstLeast, ?_⟩
  rintro ⟨v, h⟩
  cases hfirst : firstLeast cs with
  | none => exact absurd (List.mem_of_getElem? h.get) (firstLeast_eq_none_iff.1 hfirst v)
  | some k =>
    obtain ⟨w, h'⟩ := leastAt_of_firstLeast hfirst
    rw [h.unique h']

section Range

variable {takesPart : Nat → Prop} {value : Nat → Rat} {candidate : Nat → Option Rat} {n i : Nat}

theorem leastAt_map_range_iff (h : ∀ k w, candidate k = some w ↔ takesPart k ∧ value k = w) :
    (∃ v, LeastAt ((List.range n).map candidate) v i) ↔ FirstLeast takesPart value n i := by
  have hget {k : Nat} (hk : k < n) : ((List.range n).map candidate)[k]? = some (candidate k) := by
    simp [hk]
  have hmem {w : Rat} : some w ∈ (List.range n).map candidate ↔
      ∃ k < n, takesPart k ∧ value k = w := by
    simp [List.mem_map, h]
  constructor
  · rintro ⟨v, hleast⟩
    have hi : i < n := by simpa using (List.getElem?_eq_some_iff.1 hleast.get).1
    have hcandidate := hleast.get
    rw [hget hi, Option.some.injEq, h] at hcandidate
    obtain ⟨hpart, rfl⟩ := hcandidate
    refine ⟨hi, hpart, fun k hk hkpart => hleast.le _ (hmem.2 ⟨k, hk, hkpart, rfl⟩), ?_⟩
    intro k hk hkpart hvalue
    by_contra hlt
    have hless := hleast.first k (not_le.1 hlt) (value k)
      (by rw [hget hk, (h k (value k)).2 ⟨hkpart, rfl⟩])
    exact hless.ne' hvalue
  · intro hleast
    refine ⟨value i, ?_, ?_, ?_⟩
    · rw [hget hleast.lt, (h i (value i)).2 ⟨hleast.mem, rfl⟩]
    · intro w hw
      obtain ⟨k, hk, hkpart, rfl⟩ := hmem.1 hw
      exact hleast.le k hk hkpart
    · intro k hki w hw
      have hk : k < n := hki.trans hleast.lt
      rw [hget hk, Option.some.injEq, h] at hw
      obtain ⟨hkpart, rfl⟩ := hw
      refine (hleast.le k hk hkpart).lt_of_ne fun hvalue => ?_
      exact absurd (hleast.first k hk hkpart hvalue.symm) (not_le.2 hki)

theorem firstLeast_map_range_eq_some_iff
    (h : ∀ k w, candidate k = some w ↔ takesPart k ∧ value k = w) :
    firstLeast ((List.range n).map candidate) = some i ↔ FirstLeast takesPart value n i :=
  firstLeast_eq_some_iff.trans (leastAt_map_range_iff h)

theorem firstLeast_map_range_eq_none_iff
    (h : ∀ k w, candidate k = some w ↔ takesPart k ∧ value k = w) :
    firstLeast ((List.range n).map candidate) = none ↔ ∀ k < n, ¬takesPart k := by
  simp only [firstLeast_eq_none_iff, List.mem_map, List.mem_range, h, not_exists, not_and]
  exact ⟨fun hnone k hk hpart => hnone _ k hk hpart rfl, fun hnone w k hk hpart _ =>
    hnone k hk hpart⟩

end Range

theorem Grid.read_position {α : Type} {g : Grid α} {k col : Int} {i : Nat}
    (hk : position? k g.height = some i) : g.read k col = g.read i col := by
  rw [read, read, hk, position?_natCast (position?_lt hk)]

theorem Grid.exists_position_of_read {α : Type} {g : Grid α} {k col : Int} {a : α}
    (h : g.read k col = .ok a) : ∃ i, position? k g.height = some i := by
  cases hk : position? k g.height with
  | none =>
    rw [read, hk] at h
    cases h
  | some i => exact ⟨i, rfl⟩

namespace Grid

variable {α : Type} [Cell α] {g : Grid α}

theorem exists_position_of_enteringCol {k : Int} {limit : Nat} (hlimit : 0 < limit)
    {result : Option Nat} (h : g.enteringCol k limit = .ok result) :
    ∃ i, position? k g.height = some i := by
  obtain ⟨costs, hcosts, -⟩ := bind_eq_ok.1 h
  have hzero : 0 ∈ List.range (limit : Int).toNat := by simpa using hlimit
  obtain ⟨cost, hcost⟩ := exists_of_mapM_eq_ok hcosts hzero
  exact exists_position_of_read hcost

/-- The ratio test looks at every row. -/
theorem le_height_of_leavingRow {col rows rhsCol : Nat} {result : Option Nat}
    (h : g.leavingRow col rows rhsCol = .ok result) : rows ≤ g.height := by
  obtain ⟨ratios, hratios, -⟩ := bind_eq_ok.1 h
  by_contra hlt
  have hmem : g.height ∈ List.range (rows : Int).toNat := by
    rw [Int.toNat_natCast, List.mem_range]
    omega
  obtain ⟨ratio, hratio⟩ := exists_of_mapM_eq_ok hratios hmem
  obtain ⟨entry, hentry, -⟩ := bind_eq_ok.1 hratio
  obtain ⟨i, hi⟩ := exists_position_of_read hentry
  have := (position?_isSome_iff (g.height : Int) g.height).1 (by rw [hi]; rfl)
  omega

end Grid

namespace Tableau

section Signed

variable {α : Type} [Cell α] {t : Tableau α} {k : Int}

theorem selectPivot_position {i : Nat} (hk : position? k t.cells.height = some i) :
    t.selectPivot k = t.selectPivot i := by
  simp only [selectPivot, Grid.enteringCol, Grid.read_position hk]

theorem selectPivot_of_entering_none {i : Nat} (hi : i < t.cells.height)
    (h : t.cells.entering i t.rhsCol = none) : t.selectPivot i = .ok none := by
  have hw : t.cells.width = t.rhsCol + 1 := t.width_cells
  rw [selectPivot, t.cells.enteringCol_eq hi (by omega), h]
  rfl

/-- A selection returns if there are no columns to select from, or else if the row is in the grid
and, once a column is found, all constraint rows are. -/
theorem selectPivot_signed_iff {result : Option Pivot} :
    t.selectPivot k = .ok result ↔
      (t.rhsCol = 0 ∧ result = none) ∨
        ∃ i, position? k t.cells.height = some i ∧ t.choice i = result ∧
          (result ≠ none → t.constraintRows ≤ t.cells.height) := by
  have hw : t.cells.width = t.rhsCol + 1 := t.width_cells
  constructor
  · intro h
    obtain ⟨entering, hentering, hrest⟩ := bind_eq_ok.1 h
    by_cases hzero : t.rhsCol = 0
    · rw [hzero] at hentering
      obtain rfl : none = entering := Except.ok.inj hentering
      exact .inl ⟨hzero, (Except.ok.inj hrest).symm⟩
    · obtain ⟨i, hk⟩ := Grid.exists_position_of_enteringCol (Nat.pos_of_ne_zero hzero) hentering
      refine .inr ⟨i, hk, ?_⟩
      rw [selectPivot_position hk] at h
      have hi := position?_lt hk
      cases hcol : t.cells.entering i t.rhsCol with
      | none =>
        rw [selectPivot_of_entering_none hi hcol] at h
        obtain rfl := Except.ok.inj h
        exact ⟨by rw [choice, hcol]; rfl, fun hne => absurd rfl hne⟩
      | some c =>
        have hm : t.constraintRows ≤ t.cells.height := by
          rw [selectPivot, t.cells.enteringCol_eq hi (by omega), hcol] at h
          obtain ⟨_, ⟨⟩, hselected⟩ := bind_eq_ok.1 h
          obtain ⟨row, hrow, -⟩ := bind_eq_ok.1 hselected
          exact Grid.le_height_of_leavingRow hrow
        rw [t.selectPivot_eq hi hm] at h
        exact ⟨Except.ok.inj h, fun _ => hm⟩
  · rintro (⟨hzero, rfl⟩ | ⟨i, hk, hchoice, hm⟩)
    · rw [selectPivot, hzero]
      rfl
    · rw [selectPivot_position hk]
      have hi := position?_lt hk
      cases result with
      | none => exact selectPivot_of_entering_none hi (Option.map_eq_none_iff.1 hchoice)
      | some p => rw [t.selectPivot_eq hi (hm (by simp)), hchoice]

end Signed

section Rule

variable (t : Tableau Rat)

def Enters (i c : Nat) : Prop :=
  FirstLeast (fun j => 0 < t.cells.cell i j) (t.cells.cell i) t.rhsCol c

def ratio (c i : Nat) : Rat := t.cells.cell i t.rhsCol / t.cells.cell i c

def Eligible (c i : Nat) : Prop := t.cells.cell i c ≠ 0 ∧ 0 ≤ t.ratio c i

/-- The constraint row of least ratio, the lowest of equals, or none if no ratio is compared. -/
def Leaves (c : Nat) : Option Nat → Prop
  | some r => FirstLeast (t.Eligible c) (t.ratio c) t.constraintRows r
  | none => ∀ i < t.constraintRows, ¬t.Eligible c i

variable {t} {i c : Nat}

theorem entering_eq_some_iff : t.cells.entering i t.rhsCol = some c ↔ t.Enters i c :=
  firstLeast_map_range_eq_some_iff fun _ _ => enteringCandidate_eq_some

theorem leaving_eq_iff {row : Option Nat} :
    t.cells.leaving c t.constraintRows t.rhsCol = row ↔ t.Leaves c row := by
  have hcandidate : ∀ k w, leavingCandidate (t.cells.cell k c) (t.cells.cell k t.rhsCol) = some w ↔
      t.Eligible c k ∧ t.ratio c k = w :=
    fun k w => leavingCandidate_eq_some.trans and_assoc.symm
  cases row with
  | none => exact firstLeast_map_range_eq_none_iff hcandidate
  | some r => exact firstLeast_map_range_eq_some_iff hcandidate

theorem choice_eq_some_iff_leaves {p : Pivot} :
    t.choice i = some p ↔ t.Enters i p.col ∧ t.Leaves p.col p.row := by
  rw [choice, Option.map_eq_some_iff]
  constructor
  · rintro ⟨c, hcol, rfl⟩
    exact ⟨entering_eq_some_iff.1 hcol, leaving_eq_iff.1 rfl⟩
  · rintro ⟨hcol, hrow⟩
    exact ⟨p.col, entering_eq_some_iff.2 hcol, by rw [leaving_eq_iff.2 hrow]⟩

theorem choice_eq_none_iff_nonpos : t.choice i = none ↔ ∀ j < t.rhsCol, t.cells.cell i j ≤ 0 := by
  rw [choice, Option.map_eq_none_iff, Grid.entering_eq_none_iff]

end Rule

/-- What is selected by the costs in a row. No pivot is selected exactly if no cost left of the
right-hand side is positive. A pivot is selected exactly if its column enters and its row leaves,
where no row leaves exactly if no ratio is compared; then all constraint rows lie inside the grid.
And something is selected whenever all these rows do. -/
theorem selectPivot_rule (t : Tableau Rat) (k : Int) :
    (t.selectPivot k = .ok none ↔ ∀ j < t.rhsCol, ∃ i, position? k t.cells.height = some i ∧
      t.cells.cell i j ≤ 0) ∧
    (∀ p, t.selectPivot k = .ok (some p) ↔ ∃ i, position? k t.cells.height = some i ∧
      t.constraintRows ≤ t.cells.height ∧ t.Enters i p.col ∧ t.Leaves p.col p.row) ∧
    ∀ i, position? k t.cells.height = some i → t.constraintRows ≤ t.cells.height →
      ∃ result, t.selectPivot k = .ok result := by
  refine ⟨?_, fun p => ?_, fun i hk hm => ?_⟩
  · rw [selectPivot_signed_iff]
    constructor
    · rintro (⟨hzero, -⟩ | ⟨i, hk, hchoice, -⟩) j hj
      · omega
      · exact ⟨i, hk, choice_eq_none_iff_nonpos.1 hchoice j hj⟩
    · intro h
      by_cases hzero : t.rhsCol = 0
      · exact .inl ⟨hzero, rfl⟩
      · obtain ⟨i, hk, -⟩ := h 0 (Nat.pos_of_ne_zero hzero)
        refine .inr ⟨i, hk, choice_eq_none_iff_nonpos.2 fun j hj => ?_, fun hne => absurd rfl hne⟩
        obtain ⟨i', hk', hcell⟩ := h j hj
        obtain rfl : i = i' := Option.some.inj (hk.symm.trans hk')
        exact hcell
  · rw [selectPivot_signed_iff]
    constructor
    · rintro (⟨-, hnone⟩ | ⟨i, hk, hchoice, hm⟩)
      · cases hnone
      · exact ⟨i, hk, hm (by simp), choice_eq_some_iff_leaves.1 hchoice⟩
    · rintro ⟨i, hk, hm, hrule⟩
      exact .inr ⟨i, hk, choice_eq_some_iff_leaves.2 hrule, fun _ => hm⟩
  · exact ⟨_, selectPivot_signed_iff.2 (.inr ⟨i, hk, rfl, fun _ => hm⟩)⟩

/-- Two columns tie at the least positive cost. Of the ratios, the zero of a negative entry is
least, and it comes before its equal. -/
example :
    let t : Tableau Rat :=
      { cells := Grid.ofFn 4 4 fun i j =>
          ([[1, 5, 5, 2], [-3, 1, 1, 0], [2, 0, 1, 0], [2, 7, 2, 9]][i]?.getD [])[j]?.getD 0
        basis := [4, 5, 6]
        nonbasis := [1, 2, 3]
        width_cells := rfl }
    (t.selectPivot (-1)).toOption = some (some ⟨some 1, 0⟩) := by decide +kernel

end Tableau

end TwoPhase
