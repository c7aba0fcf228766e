import TwoPhase.Proofs.Compaction
import TwoPhase.Proofs.Selection
import TwoPhase.Solver

/-!
Runs of a phase as steps of one relation, and the courses that a phase can take. A phase moves
along chosen pivots and stops for the reason it gives. Nothing is assumed of the arithmetic or of
the keys of grids.
-/
namespace TwoPhase

variable {α κ : Type}

namespace Tableau

variable [Cell α] {t t' t'' : Tableau α}

def HasObjective (t : Tableau α) : Prop := t.constraintRows < t.cells.height

def objective (t : Tableau α) : α := t.cells.cell t.constraintRows t.rhsCol

def Next (t t' : Tableau α) : Prop :=
  ∃ r c, t.choice t.constraintRows = some ⟨some r, c⟩ ∧ t' = t.exchange r c

abbrev Reaches : Tableau α → Tableau α → Prop := Relation.ReflTransGen Next

def Halted (t : Tableau α) : Option FailureReason → Prop
  | none => t.choice t.constraintRows = none
  | some .unbounded => ∃ c, t.choice t.constraintRows = some ⟨none, c⟩
  | some .infeasible => False
  | some _ => ∃ r c, t.choice t.constraintRows = some ⟨some r, c⟩

theorem choice_eq_some {row c : Nat} {r : Option Nat} (h : t.choice row = some ⟨r, c⟩) :
    t.cells.entering row t.rhsCol = some c ∧
      t.cells.leaving c t.constraintRows t.rhsCol = r := by
  obtain ⟨c', hc, hp⟩ := Option.map_eq_some_iff.1 h
  obtain ⟨hr, rfl⟩ := Pivot.mk.inj hp
  exact ⟨hc, hr⟩

theorem choice_pivotal {row r c : Nat} (h : t.choice row = some ⟨some r, c⟩) :
    t.Pivotal r c := by
  obtain ⟨hc, hr⟩ := choice_eq_some h
  exact ⟨Grid.leaving_lt hr, Grid.entering_lt hc, Grid.leaving_isZero hr⟩

theorem Reaches.exchanges (h : Reaches t t') : Exchanges t t' := by
  induction h with
  | refl => exact .refl
  | tail _ hstep ih =>
    obtain ⟨r, c, hchoice, rfl⟩ := hstep
    exact ih.tail ⟨r, c, choice_pivotal hchoice, rfl⟩

theorem Reaches.constraintRows (h : Reaches t t') : t'.constraintRows = t.constraintRows :=
  h.exchanges.constraintRows

theorem Reaches.height (h : Reaches t t') : t'.cells.height = t.cells.height :=
  h.exchanges.height

theorem Reaches.hasObjective (h : Reaches t t') (ht : t.HasObjective) : t'.HasObjective := by
  rw [HasObjective, h.constraintRows, h.height]
  exact ht

theorem Reaches.constraintRows_le (h : Reaches t t') (ht : t.constraintRows ≤ t.cells.height) :
    t'.constraintRows ≤ t'.cells.height := by
  rw [h.constraintRows, h.height]
  exact ht

theorem Reaches.labels_perm (h : Reaches t t') : t'.labels.Perm t.labels :=
  h.exchanges.labels_perm

end Tableau

namespace Solver

open Tableau

variable [Cell α] {t : Tableau α} {r c : Nat}

def record (phase iteration : Nat) (t : Tableau α) (r c : Nat) : Step α where
  phase := phase
  iteration := iteration
  row := r
  col := c
  entering := t.colVar c
  leaving := t.rowVar r
  objective := (t.exchange r c).objective
  basis := (t.exchange r c).basis
  nonbasis := (t.exchange r c).nonbasis

omit [Cell α] in
theorem label_eq {vars : List Int} {i : Nat} (hi : i < vars.length) :
    label vars i = .ok (vars[i]?.getD 0) := by
  simp [label, hi]

theorem step_eq (phase iteration : Nat) (ht : t.HasObjective)
    (h : t.choice t.constraintRows = some ⟨some r, c⟩) :
    step phase iteration r c t = .ok (t.exchange r c, record phase iteration t r c) := by
  have hpivotal := choice_pivotal h
  have hw : t.cells.width = t.rhsCol + 1 := t.width_cells
  have hread : (t.exchange r c).cells.read t.constraintRows t.rhsCol =
      .ok ((t.exchange r c).cells.cell t.constraintRows t.rhsCol) :=
    Grid.read_natCast _ (by rw [height_cells_exchange]; exact ht)
      (by rw [(t.exchange r c).width_cells]; exact Nat.lt_succ_of_le (by simp [rhsCol, exchange]))
  simp only [step, label_eq (show r < t.basis.length from hpivotal.row),
    label_eq (show c < t.nonbasis.length from hpivotal.col),
    hpivotal.pivot_eq (le_of_lt ht), constraintRows_exchange, rhsCol_exchange, hread,
    bind, Except.bind, pure, Except.pure]
  rw [record, objective, constraintRows_exchange, rhsCol_exchange]
  rfl

variable [DecidableEq κ] {setting : Setting α κ} {verbose : Bool} {phase : Nat}

section Equations

variable (setting verbose phase) (left done : Nat) (seen : List κ)

theorem runPhase_of_none (ht : t.HasObjective) (hc : t.choice t.constraintRows = none) :
    runPhase setting verbose phase left done seen t =
      (shown setting verbose phase done none t).map (.halt t done none) := by
  rw [runPhase, t.selectPivot_eq ht (le_of_lt ht), hc]
  cases shown setting verbose phase done none t <;> rfl

theorem runPhase_of_unbounded (ht : t.HasObjective)
    (hc : t.choice t.constraintRows = some ⟨none, c⟩) :
    runPhase setting verbose phase left done seen t =
      .ok (.halt t done (some .unbounded) []) := by
  rw [runPhase, t.selectPivot_eq ht (le_of_lt ht), hc]
  rfl

variable (ht : t.HasObjective) (hc : t.choice t.constraintRows = some ⟨some r, c⟩)
include ht hc

theorem runPhase_zero :
    runPhase setting verbose phase 0 done seen t =
      .ok (.halt t done (some .iterationsExceeded) []) := by
  rw [runPhase, t.selectPivot_eq ht (le_of_lt ht), hc]
  rfl

theorem runPhase_of_mem (hk : setting.key t.cells ∈ seen) :
    runPhase setting verbose phase (left + 1) done seen t =
      .ok (.halt t done (some .cycleDetected) []) := by
  rw [runPhase, t.selectPivot_eq ht (le_of_lt ht), hc]
  simp only [bind, Except.bind, hk, if_true]
  rfl

theorem runPhase_of_not_mem (hk : setting.key t.cells ∉ seen) :
    runPhase setting verbose phase (left + 1) done seen t = do
      let tables ← shown setting verbose phase (done + 1) (some (r, c)) t
      let rest ← runPhase setting verbose phase left (done + 1) (setting.key t.cells :: seen)
        (t.exchange r c)
      return { rest with
        steps := record phase (done + 1) t r c :: rest.steps
        tables := tables ++ rest.tables } := by
  rw [runPhase, t.selectPivot_eq ht (le_of_lt ht), hc]
  simp only [bind, Except.bind, hk, if_false, step_eq phase (done + 1) ht hc]

end Equations

variable (setting verbose phase) in
/-- The courses of a phase from a tableau on: it converges, has no row to leave, has no pivots
left, meets a key again, or makes a pivot and goes on. -/
inductive PhaseCourse : Nat → Nat → List κ → Tableau α → PhaseRun α → Prop
  | converged {left done : Nat} {seen : List κ} {t : Tableau α} {tables : List String}
      (hchoice : t.choice t.constraintRows = none)
      (hshown : shown setting verbose phase done none t = .ok tables) :
      PhaseCourse left done seen t (.halt t done none tables)
  | unbounded {left done c : Nat} {seen : List κ} {t : Tableau α}
      (hchoice : t.choice t.constraintRows = some ⟨none, c⟩) :
      PhaseCourse left done seen t (.halt t done (some .unbounded) [])
  | exceeded {done r c : Nat} {seen : List κ} {t : Tableau α}
      (hchoice : t.choice t.constraintRows = some ⟨some r, c⟩) :
      PhaseCourse 0 done seen t (.halt t done (some .iterationsExceeded) [])
  | cycled {left done r c : Nat} {seen : List κ} {t : Tableau α}
      (hchoice : t.choice t.constraintRows = some ⟨some r, c⟩)
      (hkey : setting.key t.cells ∈ seen) :
      PhaseCourse (left + 1) done seen t (.halt t done (some .cycleDetected) [])
  | pivoted {left done r c : Nat} {seen : List κ} {t : Tableau α} {tables : List String}
      {rest : PhaseRun α} (hchoice : t.choice t.constraintRows = some ⟨some r, c⟩)
      (hkey : setting.key t.cells ∉ seen)
      (hshown : shown setting verbose phase (done + 1) (some (r, c)) t = .ok tables)
      (hrest : PhaseCourse left (done + 1) (setting.key t.cells :: seen) (t.exchange r c) rest) :
      PhaseCourse (left + 1) done seen t
        { rest with
          steps := record phase (done + 1) t r c :: rest.steps
          tables := tables ++ rest.tables }

theorem hasObjective_exchange (ht : t.HasObjective) (r c : Nat) :
    (t.exchange r c).HasObjective := by
  simpa [HasObjective] using ht

theorem PhaseCourse.of_runPhase {left done : Nat} {seen : List κ} {t : Tableau α}
    {run : PhaseRun α} (ht : t.HasObjective)
    (h : runPhase setting verbose phase left done seen t = .ok run) :
    PhaseCourse setting verbose phase left done seen t run := by
  rcases hc : t.choice t.constraintRows with _ | ⟨_ | r, c⟩
  · rw [runPhase_of_none _ _ _ _ _ _ ht hc] at h
    obtain ⟨tables, hshown, rfl⟩ := map_eq_ok h
    exact .converged hc hshown
  · rw [runPhase_of_unbounded _ _ _ _ _ _ ht hc] at h
    cases h
    exact .unbounded hc
  · cases left with
    | zero =>
      rw [runPhase_zero _ _ _ _ _ ht hc] at h
      cases h
      exact .exceeded hc
    | succ left =>
      by_cases hk : setting.key t.cells ∈ seen
      · rw [runPhase_of_mem _ _ _ _ _ _ ht hc hk] at h
        cases h
        exact .cycled hc hk
      · rw [runPhase_of_not_mem _ _ _ _ _ _ ht hc hk] at h
        obtain ⟨tables, hshown, h⟩ := bind_eq_ok.1 h
        obtain ⟨rest, hrest, h⟩ := bind_eq_ok.1 h
        cases h
        exact .pivoted hc hk hshown (of_runPhase (hasObjective_exchange ht r c) hrest)
termination_by left

theorem PhaseCourse.runPhase_eq {left done : Nat} {seen : List κ} {t : Tableau α}
    {run : PhaseRun α} (ht : t.HasObjective)
    (h : PhaseCourse setting verbose phase left done seen t run) :
    runPhase setting verbose phase left done seen t = .ok run := by
  induction h with
  | converged hc hshown =>
    rw [runPhase_of_none _ _ _ _ _ _ ht hc, hshown]
    rfl
  | unbounded hc => exact runPhase_of_unbounded _ _ _ _ _ _ ht hc
  | exceeded hc => exact runPhase_zero _ _ _ _ _ ht hc
  | cycled hc hk => exact runPhase_of_mem _ _ _ _ _ _ ht hc hk
  | pivoted hc hk hshown _ ih =>
    rw [runPhase_of_not_mem _ _ _ _ _ _ ht hc hk, hshown, ih (hasObjective_exchange ht _ _)]
    rfl

/-- A phase returns what its course gives, and nothing else. -/
theorem runPhase_eq_ok_iff {left done : Nat} {seen : List κ} {t : Tableau α} {run : PhaseRun α}
    (ht : t.HasObjective) :
    runPhase setting verbose phase left done seen t = .ok run ↔
      PhaseCourse setting verbose phase left done seen t run :=
  ⟨.of_runPhase ht, fun h => h.runPhase_eq ht⟩

omit [DecidableEq κ] in
/-- A phase moves along chosen pivots and stops for the reason it gives. -/
theorem PhaseCourse.reaches {left done : Nat} {seen : List κ} {t : Tableau α} {run : PhaseRun α}
    (h : PhaseCourse setting verbose phase left done seen t run) :
    Reaches t run.tableau ∧ run.tableau.Halted run.stop := by
  induction h with
  | converged hc _ => exact ⟨.refl, hc⟩
  | unbounded hc => exact ⟨.refl, _, hc⟩
  | exceeded hc => exact ⟨.refl, _, _, hc⟩
  | cycled hc _ => exact ⟨.refl, _, _, hc⟩
  | pivoted hc _ _ _ ih => exact ⟨.head ⟨_, _, hc, rfl⟩ ih.1, ih.2⟩

theorem runPhase_reaches {left done : Nat} {seen : List κ} {t : Tableau α} {run : PhaseRun α}
    (ht : t.HasObjective) (h : runPhase setting verbose phase left done seen t = .ok run) :
    Reaches t run.tableau ∧ run.tableau.Halted run.stop :=
  ((runPhase_eq_ok_iff ht).1 h).reaches

end Solver

end TwoPhase
