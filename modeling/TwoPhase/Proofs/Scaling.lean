import TwoPhase.Proofs.Cycling
import TwoPhase.Proofs.Feasibility
import TwoPhase.Proofs.ScaledTableau

/-!
Solves in other units. Where the costs are multiplied by one positive factor and the right-hand
sides by another, the two solves go in lock-step: at each state the tableau of one is that of the
other in the new units, so the same pivot is chosen, the same reason stops a phase, and only the
objectives and the point are multiplied. It is assumed that keys tell apart the grids that the
phases visit, since the histories of the two solves hold different keys.
-/
namespace TwoPhase

open Finset Tableau

theorem getD_map_mul (l : List Rat) (a : Rat) (i : Nat) :
    (l.map (a * ·))[i]?.getD 0 = a * l[i]?.getD 0 := by
  rw [List.getElem?_map]
  cases l[i]? with
  | none => exact (mul_zero a).symm
  | some v => rfl

namespace Block

variable {n m : Nat}

/-- A block with its right-hand sides in the units of a scale. -/
def scaled (b : Block Rat n) (k : Scale) (hm : n = m) : Block Rat m where
  matrix := b.matrix
  rhs := b.rhs.map (k.rhs * ·)
  width_matrix := b.width_matrix.trans hm
  length_rhs := (List.length_map ..).trans b.length_rhs

theorem entry_scaled (b : Block Rat n) (k : Scale) (hm : n = m) (i j : Nat) :
    (b.scaled k hm).entry i j = k.col n j * b.entry i j := by
  subst hm
  rw [entry, entry, Scale.col]
  split
  · exact getD_map_mul b.rhs k.rhs i
  · exact (one_mul _).symm

end Block

namespace LinearProgram

/-- The program in the units of a scale. An offset counts as a value of the objective; where it is
zero, it stays zero. -/
def scaled (p : LinearProgram Rat) (k : Scale) : LinearProgram Rat where
  cost := p.cost.map (k.cost * ·)
  upper := p.upper.scaled k (List.length_map ..).symm
  equal := p.equal.scaled k (List.length_map ..).symm
  offset := k.cost * k.rhs * p.offset
  cost_ne_nil := mt List.map_eq_nil_iff.1 p.cost_ne_nil

variable (p : LinearProgram Rat) (k : Scale)

@[simp] theorem numCosts_scaled : (p.scaled k).numCosts = p.numCosts := List.length_map ..

@[simp] theorem inequalityRows_scaled : (p.scaled k).inequalityRows = p.inequalityRows := rfl

@[simp] theorem constraintRows_scaled : (p.scaled k).constraintRows = p.constraintRows := rfl

@[simp] theorem threshold_scaled : (p.scaled k).threshold = p.threshold := by
  rw [threshold, threshold, numCosts_scaled, inequalityRows_scaled]

end LinearProgram

section FirstTableau

variable (p : LinearProgram Rat) (k : Scale)

theorem helperEntry_scaled (j : Nat) :
    helperEntry (p.scaled k) j = k.col p.numCosts j * helperEntry p j := by
  rw [helperEntry_eq_sum, helperEntry_eq_sum, mul_sum]
  exact sum_congr rfl fun i _ => p.equal.entry_scaled k (List.length_map ..).symm i j

theorem cell_phaseOne_scaled {i j : Nat} (hi : i < p.constraintRows + 2) (hj : j ≤ p.numCosts) :
    (phaseOne (p.scaled k)).cells.cell i j =
      k.row (p.constraintRows + 2) i * k.col p.numCosts j * (phaseOne p).cells.cell i j := by
  have hupper (i : Nat) : (p.scaled k).upper.entry i j = k.col p.numCosts j * p.upper.entry i j :=
    p.upper.entry_scaled k (List.length_map ..).symm i j
  have hequal (i : Nat) : (p.scaled k).equal.entry i j = k.col p.numCosts j * p.equal.entry i j :=
    p.equal.entry_scaled k (List.length_map ..).symm i j
  have hcost : (p.scaled k).cost[j]?.getD 0 = k.cost * p.cost[j]?.getD 0 :=
    getD_map_mul p.cost k.cost j
  have hrows : p.inequalityRows ≤ p.constraintRows := Nat.le_add_right _ _
  -- only the last row is in the units of the costs
  have hrow (hi : i ≤ p.constraintRows) : k.row (p.constraintRows + 2) i = 1 :=
    k.row_eq_one (by omega)
  rw [cell_phaseOne (p.scaled k) hi (hj.trans_eq (p.numCosts_scaled k).symm), cell_phaseOne p hi hj]
  simp only [LinearProgram.inequalityRows_scaled, LinearProgram.constraintRows_scaled,
    LinearProgram.numCosts_scaled, hupper, hequal, helperEntry_scaled, hcost]
  split
  · rw [hrow (by omega), one_mul]
  · split
    · rw [hrow (by omega), one_mul]
    · split
      · rw [hrow (by omega), one_mul]
      · have hlast : k.row (p.constraintRows + 2) i = k.cost := if_pos (by omega)
        split
        · exact (mul_zero _).symm
        · rw [hlast, k.col_eq_one (by omega)]
          ring

theorem phaseOne_scaled : phaseOne (p.scaled k) = (phaseOne p).scaled k := by
  refine Tableau.ext (Grid.ext_cell (by simp) ?_ fun i j hi hj => ?_)
    (congrArg (fun n => varRange (n + 1) p.constraintRows) (p.numCosts_scaled k))
    (congrArg (varRange 1) (p.numCosts_scaled k))
  · exact congrArg (· + 1) (p.numCosts_scaled k)
  · replace hi : i < p.constraintRows + 2 := by simpa using hi
    replace hj : j ≤ p.numCosts := (Nat.le_of_lt_succ hj).trans_eq (p.numCosts_scaled k)
    rw [cell_phaseOne_scaled p k hi hj, cell_scaled (by simpa using hi) (by simpa using hj),
      height_cells_phaseOne, rhsCol_phaseOne]

end FirstTableau

/-- The factor of the objective of a phase. In the first phase it is a sum of right-hand sides. -/
def Scale.objective (k : Scale) (phase : Nat) : Rat :=
  if phase = 1 then k.rhs else k.cost * k.rhs

def Step.scaled (s : Step Rat) (k : Scale) : Step Rat :=
  { s with objective := k.objective s.phase * s.objective }

def Outcome.scaled (k : Scale) : Outcome Rat → Outcome Rat
  | .optimal x objective => .optimal (x.map (k.rhs * ·)) (k.cost * k.rhs * objective)
  | .failed reason phase => .failed reason phase

def Result.scaled (r : Result Rat) (k : Scale) : Result Rat where
  outcome := r.outcome.scaled k
  iterations := r.iterations
  steps := r.steps.map (·.scaled k)

structure PhaseRun.Scales (k : Scale) (run run' : PhaseRun Rat) : Prop where
  tableau : run'.tableau = run.tableau.scaled k
  pivots : run'.pivots = run.pivots
  stop : run'.stop = run.stop
  steps : run'.steps = run.steps.map (·.scaled k)

theorem PhaseRun.scales_halt (k : Scale) (t : Tableau Rat) (done : Nat)
    (stop : Option FailureReason) (tables tables' : List String) :
    Scales k (halt t done stop tables) (halt (t.scaled k) done stop tables') :=
  ⟨rfl, rfl, rfl, rfl⟩

theorem PhaseRun.Scales.cons {k : Scale} {run run' : PhaseRun Rat} (h : run.Scales k run')
    (s : Step Rat) (tables tables' : List String) :
    Scales k { run with steps := s :: run.steps, tables := tables }
      { run' with steps := s.scaled k :: run'.steps, tables := tables' } where
  tableau := h.tableau
  pivots := h.pivots
  stop := h.stop
  steps := congrArg (s.scaled k :: ·) h.steps

namespace Solver

variable {κ : Type} {setting : Setting Rat κ} {options : Options} {p : LinearProgram Rat}
  {k : Scale} {verbose verbose' : Bool} {phase left left' done : Nat} {seen seen' : List κ}
  {t t' : Tableau Rat} {run run' : PhaseRun Rat}

theorem Visits.objective_scaled (h : Visits setting options p phase left seen t) :
    (t.scaled k).objective = k.objective phase * t.objective := by
  rw [Tableau.objective_scaled h.hasObjective]
  rcases h.reached with ⟨rfl, hfirst⟩ | ⟨rfl, hsecond⟩
  · rw [exchanges_height hfirst.exchanges, first_constraintRows hfirst, k.row_eq_one (by omega),
      one_mul, Scale.objective, if_pos rfl]
  · rw [hsecond.height, hsecond.constraintRows, Scale.row, if_pos rfl, Scale.objective,
      if_neg (by decide)]

theorem Visits.record_scaled {r c iteration : Nat} (ht : t.HasObjective) (hcell : t.Pivotal r c)
    (h : Visits setting options p phase left seen (t.exchange r c)) :
    record phase iteration (t.scaled k) r c = (record phase iteration t r c).scaled k := by
  simp only [record, Step.scaled, exchange_scaled ht hcell, h.objective_scaled, colVar_scaled,
    rowVar_scaled]
  rfl

theorem KeysApart.key_eq_iff (hkeys : KeysApart setting options p phase)
    (h : Visits setting options p phase left seen t)
    (h' : Visits setting options p phase left' seen' t') :
    setting.key t.cells = setting.key t'.cells ↔ t.cells = t'.cells :=
  ⟨hkeys _ _ _ _ _ _ h h', congrArg setting.key⟩

variable (setting options p k phase) in
def SameHistory (seen seen' : List κ) : Prop :=
  ∀ ⦃left left₁ s s₁ t⦄, Visits setting options p phase left s t →
    Visits setting options (p.scaled k) phase left₁ s₁ (t.scaled k) →
      (setting.key t.cells ∈ seen ↔ setting.key (t.scaled k).cells ∈ seen')

theorem SameHistory.nil : SameHistory setting options p k phase [] [] := by
  intro left left₁ s s₁ t _ _
  simp

structure LockStep (setting : Setting Rat κ) (options : Options) (p : LinearProgram Rat) (k : Scale)
    (phase left : Nat) (seen seen' : List κ) (t : Tableau Rat) : Prop where
  visits : Visits setting options p phase left seen t
  visits_scaled : Visits setting options (p.scaled k) phase left seen' (t.scaled k)
  history : SameHistory setting options p k phase seen seen'

section Run

variable (hkeys : KeysApart setting options p phase)
  (hkeys' : KeysApart setting options (p.scaled k) phase)
include hkeys hkeys'

/-- The two phases make the same pivot and stay in lock-step. -/
theorem LockStep.exchange {r c : Nat}
    (h : LockStep setting options p k phase (left + 1) seen seen' t)
    (hchoice : t.choice t.constraintRows = some ⟨some r, c⟩) (hkey : setting.key t.cells ∉ seen) :
    LockStep setting options p k phase left (setting.key t.cells :: seen)
      (setting.key (t.scaled k).cells :: seen') (t.exchange r c) where
  visits := h.visits.exchange hchoice hkey
  visits_scaled := by
    have ht := h.visits.hasObjective
    have hkey' := mt (h.history h.visits h.visits_scaled).2 hkey
    rw [← exchange_scaled ht (choice_pivotal hchoice)]
    exact h.visits_scaled.exchange ((choice_scaled ht).trans hchoice) hkey'
  history := by
    intro left₁ left₂ s₁ s₂ u hu hu'
    rw [List.mem_cons, List.mem_cons, h.history hu hu', hkeys.key_eq_iff hu h.visits,
      hkeys'.key_eq_iff hu' h.visits_scaled, cells_scaled_inj]

/-- A phase of the scaled program is the phase of the program in the new units. -/
theorem PhaseCourse.scaled (hrun : PhaseCourse setting verbose phase left done seen t run)
    (hrun' : PhaseCourse setting verbose' phase left done seen' (t.scaled k) run')
    (h : LockStep setting options p k phase left seen seen' t) : run.Scales k run' := by
  have ht := h.visits.hasObjective
  induction hrun generalizing seen' run' with
  | converged hchoice =>
    obtain ⟨tables, rfl⟩ := hrun'.eq_converged ((choice_scaled ht).trans hchoice)
    exact PhaseRun.scales_halt _ _ _ _ _ _
  | unbounded hchoice =>
    rw [hrun'.eq_unbounded ((choice_scaled ht).trans hchoice)]
    exact PhaseRun.scales_halt _ _ _ _ _ _
  | exceeded hchoice =>
    rw [hrun'.eq_exceeded ((choice_scaled ht).trans hchoice) rfl]
    exact PhaseRun.scales_halt _ _ _ _ _ _
  | cycled hchoice hkey =>
    have hkey' := (h.history h.visits h.visits_scaled).1 hkey
    rw [hrun'.eq_cycled ((choice_scaled ht).trans hchoice) (Nat.succ_pos _) hkey']
    exact PhaseRun.scales_halt _ _ _ _ _ _
  | pivoted hchoice hkey _ _ ih =>
    have hkey' := mt (h.history h.visits h.visits_scaled).2 hkey
    have hnext := h.exchange hkeys hkeys' hchoice hkey
    have hcell := choice_pivotal hchoice
    obtain ⟨tables, rest', hrest', rfl⟩ :=
      hrun'.eq_pivoted ((choice_scaled ht).trans hchoice) (Nat.succ_pos _) hkey'
    rw [exchange_scaled ht hcell] at hrest'
    rw [hnext.visits.record_scaled ht hcell]
    exact (ih hrest' hnext hnext.visits.hasObjective).cons _ _ _

end Run

theorem cleared_scaled (ht : t.HasObjective) : Cleared (p.scaled k) (t.scaled k) ↔ Cleared p t := by
  have hfactor : k.row t.cells.height t.constraintRows * k.rhs ≠ 0 :=
    (mul_pos (k.row_pos _ _) k.rhs_pos).ne'
  have hzero : Cell.isZero (t.scaled k).objective = Cell.isZero t.objective := by
    simp [Cell.isZero, Tableau.objective_scaled ht, hfactor]
  constructor
  · intro h
    exact ⟨hzero ▸ h.objective, fun n hn => by simpa using h.basis n hn⟩
  · intro h
    exact ⟨hzero ▸ h.objective, fun n hn => by simpa using h.basis n hn⟩

variable {one one' two two' : PhaseRun Rat}

section Phases

variable [DecidableEq κ] (hkeys : ∀ phase, KeysApart setting options p phase)
  (hkeys' : ∀ phase, KeysApart setting options (p.scaled k) phase)
include hkeys hkeys'

theorem FirstRun.scaled (hone : FirstRun setting options p one)
    (hone' : FirstRun setting options (p.scaled k) one') : one.Scales k one' := by
  have hrun := (PhaseOf.first hone).course
  have hrun' := (PhaseOf.first hone').course
  have hvisit' := (PhaseOf.first hone').visits
  rw [phaseOne_scaled] at hrun' hvisit'
  exact hrun.scaled (hkeys 1) (hkeys' 1) hrun' ⟨.start, hvisit', .nil⟩

/-- The second phases of two solves whose first phases are in proportion. -/
theorem SecondRun.scaled (hone : FirstRun setting options p one)
    (hone' : FirstRun setting options (p.scaled k) one') (hscales : one.Scales k one')
    (hstop : one.stop = none) (hclear : Cleared p one.tableau)
    (hclear' : Cleared (p.scaled k) one'.tableau) (htwo : SecondRun setting options p one two)
    (htwo' : SecondRun setting options (p.scaled k) one' two') : two.Scales k two' := by
  have hphase := PhaseOf.second hone hstop hclear htwo
  have hphase' := PhaseOf.second hone' (hscales.stop.trans hstop) hclear' htwo'
  have ht := hone.reaches.1.hasObjective (hasObjective_phaseOne p)
  rw [hscales.tableau, LinearProgram.threshold_scaled, compact_scaled ht] at hphase'
  exact hphase.course.scaled (hkeys 2) (hkeys' 2) hphase'.course
    ⟨hphase.visits, hphase'.visits, .nil⟩

end Phases

theorem firstReport_scaled (hscales : one.Scales k one') (reason : FailureReason) :
    (firstReport one' reason).result = (firstReport one reason).result.scaled k := by
  simp only [firstReport, Result.scaled, Outcome.scaled, hscales.pivots, hscales.steps]

theorem secondOutcome_scaled (hvisit : Visits setting options p 2 left seen two.tableau)
    (hscales : two.Scales k two') :
    secondOutcome (p.scaled k) two' = (secondOutcome p two).scaled k := by
  rw [secondOutcome, secondOutcome, hscales.stop, hscales.tableau, LinearProgram.numCosts_scaled]
  cases two.stop with
  | some reason => rfl
  | none =>
    have hpoint : tabulate p.numCosts (two.tableau.scaled k).basicValue =
        (tabulate p.numCosts two.tableau.basicValue).map (k.rhs * ·) := by
      rw [tabulate, tabulate, List.map_map]
      exact List.map_congr_left fun j _ => basicValue_scaled hvisit.hasObjective _
    have hobjective : (two.tableau.scaled k).objective + (p.scaled k).offset =
        k.cost * k.rhs * (two.tableau.objective + p.offset) := by
      rw [hvisit.objective_scaled, mul_add]
      rfl
    simp only [hpoint, hobjective, Outcome.scaled]

theorem secondReport_scaled (hvisit : Visits setting options p 2 left seen two.tableau)
    (hscales : one.Scales k one') (hscales' : two.Scales k two') :
    (secondReport (p.scaled k) one' two' (secondOutcome (p.scaled k) two')).result =
      (secondReport p one two (secondOutcome p two)).result.scaled k := by
  simp only [secondReport, Result.scaled, secondOutcome_scaled hvisit hscales', hscales.pivots,
    hscales.steps, hscales'.pivots, hscales'.steps, List.map_append]

/-- A solve of the scaled program is the solve of the program in the new units: the outcome has the
same kind, reason and phase, the pivots are the same, and so are the steps but for their
objectives. -/
theorem solve_scaled [DecidableEq κ] (setting : Setting Rat κ) (options : Options)
    (p : LinearProgram Rat) (k : Scale) (hkeys : ∀ phase, KeysApart setting options p phase)
    (hkeys' : ∀ phase, KeysApart setting options (p.scaled k) phase) :
    ∃ report report', solve setting options p = .ok report ∧
      solve setting options (p.scaled k) = .ok report' ∧
      report'.result = report.result.scaled k := by
  obtain ⟨one, hone⟩ := exists_firstRun setting options p
  obtain ⟨one', hone'⟩ := exists_firstRun setting options (p.scaled k)
  have hscales := hone.scaled hkeys hkeys' hone'
  cases hstop : one.stop with
  | some reason =>
    exact ⟨_, _, solve_of_stopped hone hstop, solve_of_stopped hone' (hscales.stop.trans hstop),
      firstReport_scaled hscales reason⟩
  | none =>
    have hstop' := hscales.stop.trans hstop
    have ht := hone.reaches.1.hasObjective (hasObjective_phaseOne p)
    have hcleared : Cleared (p.scaled k) one'.tableau ↔ Cleared p one.tableau := by
      rw [hscales.tableau]
      exact cleared_scaled ht
    by_cases hclear : Cleared p one.tableau
    · have hclear' := hcleared.2 hclear
      obtain ⟨two, htwo⟩ := hone.exists_secondRun hstop hclear
      obtain ⟨two', htwo'⟩ := hone'.exists_secondRun hstop' hclear'
      obtain ⟨⟨left, seen, hvisit⟩, -⟩ := htwo.visits hone hstop hclear
      have hscales' := htwo.scaled hkeys hkeys' hone hone' hscales hstop hclear hclear' htwo'
      exact ⟨_, _, solve_of_secondRun hone hstop hclear htwo,
        solve_of_secondRun hone' hstop' hclear' htwo', secondReport_scaled hvisit hscales hscales'⟩
    · exact ⟨_, _, solve_of_not_cleared hone hstop hclear,
        solve_of_not_cleared hone' hstop' (mt hcleared.1 hclear), firstReport_scaled hscales _⟩

/-- Two fixed variables and a bounded one, with the costs doubled and the right-hand sides tripled:
the objectives of the first phase are tripled, that of the second is six times what it was. -/
theorem solve_scaled_both_phases :
    let p := LinearProgram.ofRows (-1) [-1, -1] [([0, 0, 1], 3)] [([1, 0, 0], 1), ([0, 1, 0], 2)]
    let k : Scale := ⟨2, 3, by decide, by decide⟩
    (∀ phase, KeysApart Setting.exact {} p phase) ∧
      (∀ phase, KeysApart Setting.exact {} (p.scaled k) phase) ∧
      outcome Setting.exact {} p = .ok (.optimal [1, 2, 3] (-6)) ∧
      ∃ report, solve Setting.exact {} (p.scaled k) = .ok report ∧
        report.result.outcome = .optimal [3, 6, 9] (-36) ∧ report.result.iterations = (2, 1) ∧
        report.result.steps.map (·.objective) = [6, 0, -36] := by
  intro p k
  have hkeys := keysApart_exact {} p
  have hkeys' := keysApart_exact {} (p.scaled k)
  have hout : outcome Setting.exact {} p = .ok (.optimal [1, 2, 3] (-6)) := by decide +kernel
  have hcount : (solve Setting.exact {} p).map (·.result.iterations) = .ok (2, 1) := by
    decide +kernel
  have hsteps : (solve Setting.exact {} p).map (fun report =>
      (report.result.scaled k).steps.map (·.objective)) = .ok [6, 0, -36] := by decide +kernel
  obtain ⟨report, report', h, h', hscaled⟩ := solve_scaled Setting.exact {} p k hkeys hkeys'
  refine ⟨hkeys, hkeys', hout, report', h', ?_⟩
  rw [outcome, h] at hout
  rw [h] at hcount hsteps
  have hpoint : report.result.outcome = .optimal [1, 2, 3] (-6) := Except.ok.inj hout
  rw [hscaled]
  exact ⟨(congrArg (Outcome.scaled k) hpoint).trans (by decide +kernel), Except.ok.inj hcount,
    Except.ok.inj hsteps⟩

end Solver

end TwoPhase
