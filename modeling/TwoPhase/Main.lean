import TwoPhase.ArrayFile.Delimited
import TwoPhase.ArrayFile.Typed
import TwoPhase.CommandLine
import TwoPhase.Digest
import TwoPhase.Plots.Image
import TwoPhase.Reference
import TwoPhase.Text.Columns
import TwoPhase.VectorText
import TwoPhase.Yaml.Resolve

/-!
The program: the command line on the files of the machine, with readers and a reference of its own.
-/
namespace TwoPhase

namespace Program

def fileFault : IO.Error → FileFault
  | .noFileOrDirectory .. => .notFound
  | .inappropriateType .. => .isDirectory
  | .alreadyExists .. => .alreadyExists
  | _ => .other

def attempt {α : Type} (action : IO α) : IO (Except FileFault α) := do
  try return .ok (← action)
  catch e => return .error (fileFault e)

instance : FileAccess IO where
  current := return Path.ofString (← IO.currentDir).toString
  home user := if user.isEmpty then return (← IO.getEnv "HOME").map Path.ofString else return none
  present p := return ← ((← IO.currentDir) / p.toString).pathExists
  read p := attempt (IO.FS.readBinFile p.toString)
  makeFolders p := attempt (IO.FS.createDirAll p.toString)
  write p content := attempt (IO.FS.writeBinFile p.toString content)

def fileText : FileFault → String
  | .notFound => "no such file or folder"
  | .isDirectory => "a folder stands where a file is needed"
  | .notDirectory => "a file stands where a folder is needed"
  | .alreadyExists => "a file of this name exists"
  | .other => "a file cannot be used"

def arrayText : ArrayFault → String
  | .ragged => "the rows of an array differ in length"
  | .badText => "a text in an array is no number"
  | .notNumber => "a value in an array is no number"
  | .overflow => "an integer exceeds the range of doubles"
  | .shape => "an array has the wrong shape"

def description : RunFault → String
  | .config (.file fault) | .file fault | .history (.file fault) => fileText fault
  | .config .homeless => "the home folder is not known"
  | .config (.reader reason) | .reference reason => reason
  | .config .encoding => "a file is not encoded in UTF-8"
  | .config .notMapping => "a section of the configuration is no mapping"
  | .config (.array fault) => arrayText fault
  | _ => "the run failed"

def faultText (f : RunFault) : String := f.message.getD (description f)

def readers : Readers where
  yaml cs := (Yaml.read cs).mapError fun _ => "the configuration is malformed"
  typed content := (Typed.read content.data).mapError fun
    | .empty => "an array file is empty"
    | .malformed => "an array file is malformed"
  delimited content := (Delimited.read? content).elim (.error "an array file is malformed") .ok

/-- A thousand calls may be under way at once, a few of which are those that lead to the writer. -/
def levels : Nat := 990

def tools : Tools where
  readers
  key := Grid.digest
  layout := Columns.layout
  vectorText := VectorText.render
  reference := Reference.objective
  draw := Plots.chart
  levels
  two_le_levels := by decide

end Program

end TwoPhase

open TwoPhase in
def main (words : List String) : IO UInt32 := do
  let (ending, output) ← CommandLine.run Program.tools words
  IO.print output.stdout
  IO.eprint output.stderr
  match ending with
  | .ok code => return UInt32.ofNat code
  | .error .help =>
    IO.println CommandLine.usage
    return 0
  | .error (.usage fault) =>
    IO.eprintln CommandLine.usage
    IO.eprintln fault.line
    return 2
  | .error (.fault fault) =>
    IO.eprintln (CommandLine.programName ++ ": " ++ Program.faultText fault)
    return 1
