import TwoPhase.Agreement
import TwoPhase.CommandLine.Arguments
import TwoPhase.Config
import TwoPhase.History.File
import TwoPhase.Plots
import TwoPhase.Solver

/-!
The command line: solves the problem of a configuration, writes the trace and the plots that are
asked for, prints the solution, and checks it against a reference. A run says what it printed and
how it ended; what was printed before a fault stays. What other programs and libraries do in a run
is a parameter: reading the formats of files, digests of grids, the layout of tables and vectors,
the reference, the drawing of figures, and how deep a record may nest.
-/
namespace TwoPhase

structure Tools where
  readers : Readers
  key : Grid Float → String
  layout : List String → List (List String) → String
  vectorText : List Float → String
  reference : LinearProgram Float → Except ReferenceFault Float
  draw : Plots.Drawing Float
  /-- How many collections may stand inside each other in a written record. -/
  levels : Nat
  two_le_levels : 2 ≤ levels

def Tools.setting (tools : Tools) : Setting Float String where
  key := tools.key
  renderer := ⟨Decimal.fixedText 4, tools.layout⟩

structure Output where
  stdout : String := ""
  stderr : String := ""
  deriving DecidableEq, Repr

inductive RunFault where
  | config (fault : ConfigFault)
  | options (fault : OptionFault)
  | tableau (fault : TableauFault)
  | history (fault : HistoryFault)
  | file (fault : FileFault)
  | reference (reason : String)
  | arithmetic (fault : ArithmeticFault)

def RunFault.message : RunFault → Option String
  | .config fault => fault.message
  | .options fault => some fault.message
  | .tableau fault => fault.message
  | .history fault => fault.message
  | _ => none

/-- Why a run ends without an exit code of its own. -/
inductive Ending where
  | help
  | usage (fault : CommandLine.ArgumentFault)
  | fault (fault : RunFault)

namespace CommandLine

def exitOk : Nat := 0

def exitFailed : Nat := 1

def exitMismatch : Nat := 2

def tolerance : Number := .float 1e-6

def objectiveText (x : Float) : String := Decimal.generalText 6 x

abbrev Run (m : Type → Type) := ExceptT Ending (StateT Output m)

variable {m : Type → Type} [Monad m] [FileAccess m]

def stop {α : Type} (fault : RunFault) : Run m α := throw (.fault fault)

def need {ε α : Type} (f : ε → RunFault) (r : Except ε α) : Run m α :=
  match r with
  | .ok a => pure a
  | .error fault => stop (f fault)

def say (text : String) : Run m Unit :=
  modify fun o => { o with stdout := o.stdout ++ text }

def warn (text : String) : Run m Unit :=
  modify fun o => { o with stderr := o.stderr ++ text }

def override (a : Arguments) (c : Config) : Except OptionFault Config := do
  let options := if a.verbose then { c.options with verbose := true } else c.options
  let options ←
    match a.maxIterations with
    | some i => options.withMaxIterations i
    | none => pure options
  return { c with options, check := c.check || a.check }

def logText (least : Severity) (r : Report Float) : String :=
  String.join <|
    ((r.log objectiveText).filter fun l => least.rank ≤ l.severity.rank).map (·.render ++ "\n")

def writeFiles (tools : Tools) (folder : Path) (o : OutputConfig) (steps : List (Step Float)) :
    Run m Unit := do
  if o.trace then
    let records := steps.map fun s => Record.step (s.mapObjective Value.float)
    let saved ← (History.save tools.levels (folder.join (Path.ofString "trace.jsonl")) records :
      m (Except HistoryFault Nat))
    let _ ← need .history saved
  if o.plots then
    let saved ← (Plots.save tools.draw (folder.join (Path.ofString "plots")) steps :
      m (Except FileFault (List Path)))
    let _ ← need .file saved

def solutionText (tools : Tools) (x : List Float) (objective : Float) (iterations : Nat × Nat) :
    String :=
  s!"x = {tools.vectorText x}\nobjective = {objectiveText objective}\n" ++
    s!"pivots = {iterations.1} + {iterations.2}\n"

def crossCheck (tools : Tools) (p : LinearProgram Float) (objective : Float) : Run m Nat := do
  match tools.reference p with
  | .error (.brokenOff reason) => stop (.reference reason)
  | .error (.unsolved message) =>
    warn s!"reference solver failed: {message}\n"
    return exitMismatch
  | .ok reference =>
    if ← need .arithmetic (objectivesAgree (.float objective) (.float reference) tolerance) then
      say "reference objective agrees\n"
      return exitOk
    else
      warn s!"reference objective {objectiveText reference} differs\n"
      return exitMismatch

def runConfig (tools : Tools) (a : Arguments) (c : Config) : Run m Nat := do
  let report ← need .tableau (solve tools.setting c.options c.problem)
  say report.printed
  warn (logText a.severity report)
  if let some out := a.out then
    writeFiles tools (Path.ofString out) c.output report.result.steps
  match report.result.outcome with
  | .failed reason phase =>
    say s!"error: {reason.message phase}\n"
    return exitFailed
  | .optimal x objective =>
    say (solutionText tools x objective report.result.iterations)
    if c.check then crossCheck tools c.problem objective else return exitOk

def runArguments (tools : Tools) (a : Arguments) : Run m Nat := do
  let loaded ← ((Config.load tools.readers (Path.ofString a.config)).run :
    m (Except ConfigFault Config))
  let config ← need .config loaded
  runConfig tools a (← need .options (override a config))

def run (tools : Tools) (words : List String) : m (Except Ending Nat × Output) :=
  let program : Run m Nat :=
    match Arguments.ofWords words with
    | .error fault => throw (.usage fault)
    | .ok none => throw .help
    | .ok (some a) => runArguments tools a
  program.run.run {}

end CommandLine

end TwoPhase
