/-!
What a solve returns: the pivots it made, and an optimal point or the reason why there is none.
-/
namespace TwoPhase

universe u

structure Step (α : Type u) where
  phase : Nat
  iteration : Nat
  row : Nat
  col : Nat
  entering : Int
  leaving : Int
  objective : α
  basis : List Int
  nonbasis : List Int

inductive FailureReason where
  | iterationsExceeded
  | cycleDetected
  | infeasible
  | unbounded
  deriving DecidableEq, Repr

namespace FailureReason

def label : FailureReason → String
  | .iterationsExceeded => "phase_iterations_exceeded"
  | .cycleDetected => "cycle_detected"
  | .infeasible => "infeasible"
  | .unbounded => "unbounded"

def message (phase : Nat) : FailureReason → String
  | .iterationsExceeded => s!"Exceeded phase {phase} max iterations"
  | .cycleDetected => s!"Phase {phase} cycle found"
  | .infeasible => "Problem is infeasible"
  | .unbounded => "Problem is unbounded"

end FailureReason

inductive Outcome (α : Type u) where
  | optimal (x : List α) (objective : α)
  | failed (reason : FailureReason) (phase : Nat)
  deriving DecidableEq

structure Result (α : Type u) where
  outcome : Outcome α
  iterations : Nat × Nat
  steps : List (Step α)

/-- A result with what was shown on the way: the tables, and the shape of the compacted tableau
if the second phase was reached. -/
structure Report (α : Type u) where
  result : Result α
  tables : List String
  compactShape : Option (Nat × Nat)

namespace Report

variable {α : Type u}

def printed (r : Report α) : String := String.join (r.tables.map (· ++ "\n\n"))

end Report

inductive Severity where
  | debug
  | info
  | warning
  | error
  deriving DecidableEq, Repr

namespace Severity

def label : Severity → String
  | .debug => "DEBUG"
  | .info => "INFO"
  | .warning => "WARNING"
  | .error => "ERROR"

def all : List Severity := [.debug, .info, .warning, .error]

def rank : Severity → Nat
  | .debug => 10
  | .info => 20
  | .warning => 30
  | .error => 40

end Severity

structure LogLine where
  severity : Severity
  text : String

def LogLine.render (l : LogLine) : String := l.severity.label ++ ":simplex:" ++ l.text

def Step.logLine {α : Type u} (s : Step α) : LogLine where
  severity := .debug
  text := s!"phase {s.phase} pivot {s.iteration} at ({s.row}, {s.col}): " ++
    s!"x{s.entering} enters, x{s.leaving} leaves"

namespace Report

variable {α : Type u}

def log (number : α → String) (r : Report α) : List LogLine :=
  let pivots (phase : Nat) := (r.result.steps.filter (·.phase = phase)).map Step.logLine
  let (p₁, p₂) := r.result.iterations
  let passage :=
    match r.compactShape with
    | some (h, w) =>
      [⟨.debug, s!"phase 1 finished after {p₁} pivots; phase 2 tableau has shape ({h}, {w})"⟩]
    | none => []
  let last :=
    match r.result.outcome with
    | .optimal _ objective =>
      ⟨.info, "optimal objective " ++ number objective ++ s!" after {p₁} + {p₂} pivots"⟩
    | .failed reason phase =>
      ⟨.info, s!"simplex stopped in phase {phase}: {reason.message phase}"⟩
  pivots 1 ++ passage ++ pivots 2 ++ [last]

end Report

end TwoPhase
