import TwoPhase.Proofs.Visits

/-!
No solve fails. At each state that it passes through, the pivot can be selected and made, the
tableau can be shown and compacted, and a solution can be read off, so a solve returns an answer
or a reason. The shapes alone decide this: infinite cells, cells that are not numbers and
comparisons that are never true change nothing.
-/
namespace TwoPhase

open Tableau

variable {α κ : Type} [Cell α]

namespace Tableau

variable {t : Tableau α}

theorem mapM_read_eq (t : Tableau α) {i : Nat} (hi : i < t.cells.height) :
    ((List.range t.cells.width).mapM fun j : Nat => t.cells.read i j) =
      .ok ((List.range t.cells.width).map (t.cells.cell i)) :=
  mapM_eq_ok fun _ hj => t.cells.read_natCast hi (List.mem_range.1 hj)

theorem exists_table_eq_ok (renderer : Renderer α) {phase : Int} (iteration : Int)
    (hlabels : t.constraintRows + (objectiveLabels phase).length ≤ t.cells.height)
    {pivot : Option (Nat × Nat)} (hpivot : ∀ r c, pivot = some (r, c) → c < t.cells.width) :
    ∃ text, t.table renderer phase iteration (pivot.map fun (r, c) => (↑r, ↑c)) = .ok text := by
  refine exists_bind_eq_ok (exists_mapM_eq_ok ?_) fun rows _ => ⟨_, rfl⟩
  rintro ⟨label, i⟩ hlabel
  have hi : i < t.cells.height := by
    have hi := (List.mem_zipIdx' hlabel).1
    rw [List.length_append, List.length_map] at hi
    exact hi.trans_le hlabels
  refine exists_bind_eq_ok ⟨_, t.mapM_read_eq hi⟩ fun cells hcells => ?_
  have hlength : cells.length = t.cells.width := by
    rw [t.mapM_read_eq hi, Except.ok.injEq] at hcells
    rw [← hcells, List.length_map, List.length_range]
  cases pivot with
  | none => exact ⟨_, rfl⟩
  | some cell =>
    obtain ⟨r, c⟩ := cell
    have hc := hpivot r c rfl
    simp only [Option.map_some, List.length_map, hlength, position?_natCast hc]
    split
    · exact ⟨_, rfl⟩
    · exact ⟨_, rfl⟩

end Tableau

namespace Solver

variable {setting : Setting α κ} {options : Options} {p : LinearProgram α} {phase left : Nat}
  {seen : List κ} {t : Tableau α}

theorem Visits.labels_le_height (h : Visits setting options p phase left seen t) :
    t.constraintRows + (objectiveLabels phase).length ≤ t.cells.height := by
  rcases h.reached with ⟨rfl, hfirst⟩ | ⟨rfl, hsecond⟩
  · rw [first_constraintRows hfirst, exchanges_height hfirst.exchanges]
    exact le_refl _
  · rw [hsecond.constraintRows, hsecond.height]
    exact le_refl _

theorem Visits.exists_shown (h : Visits setting options p phase left seen t)
    (verbose : Bool) (iteration : Nat) (pivot : Option (Nat × Nat))
    (hpivot : ∀ r c, pivot = some (r, c) → c < t.rhsCol) :
    ∃ tables, shown setting verbose phase iteration pivot t = .ok tables := by
  rw [shown]
  split
  · refine exists_bind_eq_ok (exists_table_eq_ok _ _ h.labels_le_height fun r c hrc => ?_)
      fun text _ => ⟨_, rfl⟩
    rw [t.width_cells]
    exact (hpivot r c hrc).trans (Nat.lt_succ_self _)
  · exact ⟨[], rfl⟩

/-- From each state of a phase some course leads to its end, as the pivots run out. -/
theorem Visits.exists_phaseCourse [DecidableEq κ] (verbose : Bool) {left : Nat} (done : Nat)
    {seen : List κ} {t : Tableau α} (h : Visits setting options p phase left seen t) :
    ∃ run, PhaseCourse setting verbose phase left done seen t run := by
  rcases hc : t.choice t.constraintRows with _ | ⟨_ | r, c⟩
  · obtain ⟨tables, hshown⟩ := h.exists_shown verbose done none (by simp)
    exact ⟨_, .converged hc hshown⟩
  · exact ⟨_, .unbounded hc⟩
  · cases left with
    | zero => exact ⟨_, .exceeded hc⟩
    | succ left =>
      by_cases hk : setting.key t.cells ∈ seen
      · exact ⟨_, .cycled hc hk⟩
      · have hcol : ∀ r' c', some (r, c) = some (r', c') → c' < t.rhsCol := by
          rintro r' c' ⟨⟩
          exact (choice_pivotal hc).col
        obtain ⟨tables, hshown⟩ := h.exists_shown verbose (done + 1) (some (r, c)) hcol
        obtain ⟨rest, hrest⟩ := exists_phaseCourse verbose (done + 1) (h.exchange hc hk)
        exact ⟨_, .pivoted hc hk hshown hrest⟩
termination_by left

theorem Visits.exists_runPhase [DecidableEq κ] (verbose : Bool) (done : Nat)
    (h : Visits setting options p phase left seen t) :
    ∃ run, runPhase setting verbose phase left done seen t = .ok run := by
  obtain ⟨run, hrun⟩ := h.exists_phaseCourse verbose done
  exact ⟨run, hrun.runPhase_eq h.hasObjective⟩

variable (setting options p) in
theorem exists_firstRun [DecidableEq κ] : ∃ one, FirstRun setting options p one :=
  Visits.start.exists_runPhase options.verbose 0

theorem FirstRun.exists_secondRun [DecidableEq κ] {one : PhaseRun α}
    (hone : FirstRun setting options p one) (hstop : one.stop = none)
    (hclear : Cleared p one.tableau) : ∃ two, SecondRun setting options p one two :=
  (hone.compact_visits hstop hclear).exists_runPhase options.verbose 0

theorem exists_solve [DecidableEq κ] (setting : Setting α κ) (options : Options)
    (p : LinearProgram α) : ∃ report, solve setting options p = .ok report := by
  obtain ⟨one, hone⟩ := exists_firstRun setting options p
  cases hstop : one.stop with
  | some reason => exact ⟨_, solve_eq_ok_iff.2 (.first hone hstop)⟩
  | none =>
    by_cases hclear : Cleared p one.tableau
    · obtain ⟨two, htwo⟩ := hone.exists_secondRun hstop hclear
      cases hstop' : two.stop with
      | some reason => exact ⟨_, solve_eq_ok_iff.2 (.second hone hstop hclear htwo hstop')⟩
      | none => exact ⟨_, solve_eq_ok_iff.2 (.optimal hone hstop hclear htwo hstop')⟩
    · exact ⟨_, solve_eq_ok_iff.2 (.infeasible hone hstop hclear)⟩

theorem Visits.exists_choice (h : Visits setting options p phase left seen t) :
    ∃ choice, t.selectPivot t.constraintRows = .ok choice ∧
      ∀ r c, choice = some ⟨some r, c⟩ → t.Pivotal r c ∧ (t.pivot r c).2 = none := by
  have ht := h.hasObjective
  refine ⟨_, t.selectPivot_eq ht (le_of_lt ht), fun r c hchoice => ?_⟩
  have hpivotal := choice_pivotal hchoice
  exact ⟨hpivotal, by rw [hpivotal.pivot_eq (le_of_lt ht)]⟩

theorem Visits.exists_compact (h : Visits setting options p 1 left seen t) :
    ∃ t', t.dropColumnsAbove p.threshold = .ok t' ∧
      ofGrid? t'.cells t'.basis t'.nonbasis t.constraintRows = .ok t' := by
  refine ⟨_, dropColumnsAbove_eq _ _ h.hasObjective, ?_⟩
  rw [ofGrid?, if_neg (by simp [constraintRows]), dif_pos (t.compact p.threshold).width_cells]

/-- A solution is read off by writing some of the slots from zero on, each of them once. -/
theorem Visits.solution_eq (h : Visits setting options p 2 left seen t) (n : Nat) :
    t.solution n =
        .ok ((t.writes n).foldl (fun x w => x.set w.1.toNat w.2) (List.replicate n 0)) ∧
      ((t.writes n).map Prod.fst).Nodup ∧ ∀ w ∈ t.writes n, 0 ≤ w.1 ∧ w.1 < n := by
  have hperm := second_labels_perm h.second
  have hpos : ∀ k ∈ t.basis, 1 ≤ k := fun k hk =>
    ((mem_of_labels_perm hperm).1 (List.mem_append_left _ hk)).1
  have hnodup : t.basis.Nodup := (List.nodup_append.1 (second_labels_nodup h.second)).1
  refine ⟨t.solution_eq_writes (le_of_lt h.hasObjective) hpos n, ?_, fun w hw => ?_⟩
  · rw [map_fst_writes]
    exact (hnodup.filter _).map fun a b hab => by omega
  · have hslot : w.1 ∈ (t.writes n).map Prod.fst := List.mem_map_of_mem hw
    rw [map_fst_writes] at hslot
    obtain ⟨k, hk, hw⟩ := List.mem_map.1 hslot
    obtain ⟨hk, hle⟩ := List.mem_filter.1 hk
    have hle : k ≤ (n : Int) := by simpa using hle
    have hk := hpos k hk
    omega

/-- Every solve returns. All its pivots are at cells of constraint rows, left of the right-hand
side, that do not test as zero, the compaction passes the checks of a new tableau, and reading
the solution off writes slots below the number of variables, each at most once. -/
theorem solve_returns [DecidableEq κ] (setting : Setting α κ) (options : Options)
    (p : LinearProgram α) :
    (∃ report, solve setting options p = .ok report ∧ ∀ s ∈ report.result.steps,
      ∃ left seen t, Visits setting options p s.phase left seen t ∧ t.Pivotal s.row s.col) ∧
    (∀ phase left seen t, Visits setting options p phase left seen t →
      ∃ choice, t.selectPivot t.constraintRows = .ok choice ∧
        ∀ r c, choice = some ⟨some r, c⟩ → t.Pivotal r c ∧ (t.pivot r c).2 = none) ∧
    (∀ left seen t, Visits setting options p 1 left seen t →
      ∃ t', t.dropColumnsAbove p.threshold = .ok t' ∧
        ofGrid? t'.cells t'.basis t'.nonbasis t.constraintRows = .ok t') ∧
    ∀ left seen t, Visits setting options p 2 left seen t →
      t.solution p.numCosts = .ok ((t.writes p.numCosts).foldl
        (fun x w => x.set w.1.toNat w.2) (List.replicate p.numCosts 0)) ∧
      ((t.writes p.numCosts).map Prod.fst).Nodup ∧
      ∀ w ∈ t.writes p.numCosts, 0 ≤ w.1 ∧ w.1 < p.numCosts := by
  refine ⟨?_, ?_, ?_, ?_⟩
  · obtain ⟨report, h⟩ := exists_solve setting options p
    exact ⟨report, h, fun s hs => (recorded_of_solve h s hs).pivotal⟩
  · intro phase left seen t h
    exact h.exists_choice
  · intro left seen t h
    exact h.exists_compact
  · intro left seen t h
    exact h.solution_eq p.numCosts

end Solver

end TwoPhase
