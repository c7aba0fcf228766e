import TwoPhase.Folder
import TwoPhase.Problem
import TwoPhase.Solver.Options
import TwoPhase.Text.Lines
import TwoPhase.Value.Array

/-!
Configurations: a YAML mapping with the sections `problem`, `options` and `output`, each of which
may be left out. An array of the problem stands in the mapping itself or in a file that the
mapping names; a name is taken from the folder of the configuration. Options are read before the
problem, and the first fault is reported. How a YAML text and an array file are read is a parameter.
-/
namespace TwoPhase

structure OutputConfig where
  trace : Bool := true
  plots : Bool := false
  deriving DecidableEq, Repr

structure Config where
  problem : LinearProgram Float
  options : Options
  output : OutputConfig
  check : Bool

/-- The readers of three formats. One that refuses its input says why. -/
structure Readers where
  yaml : List Char → Except String Value
  typed : ByteArray → Except String (Tensor Float)
  delimited : ByteArray → Except String (Tensor Float)

inductive ConfigFault where
  | file (fault : FileFault)
  | homeless
  | missingFile (path : Path)
  | unsupportedFile (path : Path)
  | reader (reason : String)
  | encoding
  | notMapping
  | options (fault : OptionFault)
  | missingCost
  | array (fault : ArrayFault)
  | mismatch (fault : DimensionMismatch)

def ConfigFault.message : ConfigFault → Option String
  | .missingFile path => some path.toString
  | .unsupportedFile path => some ("unsupported matrix file type: " ++ path.toString)
  | .options fault => some fault.message
  | .missingCost => some (Text.quoted "problem.c (or problem.c_path) is required")
  | .mismatch fault => some fault.message
  | _ => none

namespace Config

def field? (v : Value) (key : String) : Except ConfigFault (Option Value) :=
  match v with
  | .dict entries => .ok (Value.lookup key entries)
  | _ => .error .notMapping

/-- The value of an entry; null counts as none. -/
def given? (v : Value) (key : String) : Except ConfigFault (Option Value) := do
  match ← field? v key with
  | some .null => return none
  | value => return value

def emptyMapping : Value := .dict []

def orEmpty (v : Option Value) : Value := (v.filter Value.isTrue).getD emptyMapping

def pathText : Value → String
  | .text s => s
  | v => v.literal

/-- A nonempty vector as a single row. -/
def asRow (t : Tensor Float) : Tensor Float :=
  match t.shape with
  | [n] => if n = 0 then t else (t.reshape? [1, n]).getD t
  | _ => t

def readOptions (v : Value) : Except ConfigFault Options := do
  let verbose := (← field? v "verbose").getD (.bool false)
  let maxIterations := (← field? v "max_iterations").getD (.int 8)
  (Options.ofValues verbose maxIterations).mapError .options

def readOutput (v : Value) : Except ConfigFault OutputConfig := do
  let trace := (← field? v "trace").getD (.bool true)
  let plots := (← field? v "plots").getD (.bool false)
  return { trace := trace.isTrue, plots := plots.isTrue }

def readOffset (v : Value) : Except ConfigFault Float := do
  let value := (← field? v "offset").or (← field? v "lambda")
  (value.getD (.float 0)).toFloat.mapError .array

variable {m : Type → Type} [Monad m] [FileAccess m] (readers : Readers)

def lift {α : Type} (r : Except ConfigFault α) : ExceptT ConfigFault m α := ExceptT.mk (pure r)

def bytes (path : Path) : ExceptT ConfigFault m ByteArray := do
  match ← (FileAccess.read path : m (Except FileFault ByteArray)) with
  | .ok content => return content
  | .error fault => throw (.file fault)

def text (path : Path) : ExceptT ConfigFault m String := do
  match String.fromUTF8? (← bytes path) with
  | some s => return s
  | none => throw .encoding

/-- A path that starts with a tilde and a user starts from the home of this user. -/
def expanded (path : Path) : ExceptT ConfigFault m Path := do
  match path.absolute, path.parts with
  | false, part :: rest =>
    match part.toList with
    | '~' :: user =>
      match ← (FileAccess.home (String.ofList user) : m (Option Path)) with
      | some home => return { home with parts := home.parts ++ rest }
      | none => throw .homeless
    | _ => return path
  | _, _ => return path

def arrayOfFile (path : Path) : ExceptT ConfigFault m (Tensor Float) := do
  if !(← (FileAccess.present path : m Bool)) then throw (.missingFile path)
  else if path.suffix = ".npy" then
    lift ((readers.typed (← bytes path)).mapError .reader)
  else if path.suffix = ".csv" ∨ path.suffix = ".txt" then
    lift ((readers.delimited (← bytes path)).mapError .reader)
  else throw (.unsupportedFile path)

/-- The array of an entry: of the file that is named under the key with `_path`, or else the
value under the key itself. -/
def array? (base : Path) (v : Value) (key : String) :
    ExceptT ConfigFault m (Option (Tensor Float)) := do
  match ← lift (given? v (key ++ "_path")) with
  | some name => return some (← arrayOfFile readers (base.join (Path.ofString (pathText name))))
  | none =>
    match ← lift (given? v key) with
    | some value => return some (← lift (value.floats.mapError .array))
    | none => return none

def readProblem (base : Path) (v : Value) : ExceptT ConfigFault m (LinearProgram Float) := do
  match ← array? readers base v "c" with
  | none => throw .missingCost
  | some c =>
    let a ← array? readers base v "A"
    let a' ← array? readers base v "A_eq"
    let b ← array? readers base v "b"
    let b' ← array? readers base v "b_eq"
    let constant ← lift (readOffset v)
    lift ((LinearProgram.ofTensors c (a.map asRow) b (a'.map asRow) b' constant).mapError .mismatch)

def ofValue (base : Path) (v : Value) : ExceptT ConfigFault m Config := do
  let problemSection := orEmpty (← lift (field? v "problem"))
  let optionSection := orEmpty (← lift (field? v "options"))
  let outputSection := orEmpty (← lift (field? v "output"))
  let options ← lift (readOptions optionSection)
  let output ← lift (readOutput outputSection)
  let problem ← readProblem readers base problemSection
  let check ← lift (field? v "check")
  return { problem, options, output, check := check.any Value.isTrue }

def load (path : Path) : ExceptT ConfigFault m Config := do
  let path ← expanded path
  let place := ((← (FileAccess.current : m Path)).join path).normal
  let source ← text place
  let v ← lift ((readers.yaml (Text.unifyLineEnds source.toList)).mapError .reader)
  ofValue readers place.parent (orEmpty (some v))

end Config

end TwoPhase
