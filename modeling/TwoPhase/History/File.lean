import TwoPhase.Folder
import TwoPhase.History

/-!
Histories in files. Saving replaces what the file held, and a record without a written form ends
it after the lines before it.
-/
namespace TwoPhase

inductive HistoryFault where
  | file (fault : FileFault)
  | record (fault : RecordFault)
  | encoding
  | malformed
  deriving DecidableEq, Repr

def HistoryFault.message : HistoryFault → Option String
  | .record fault => fault.message
  | _ => none

namespace History

variable {m : Type → Type} [Monad m] [FileAccess m]

def save (levels : Nat) (path : Path) (records : List Record) : m (Except HistoryFault Nat) := do
  match ← (FileAccess.makeFolders path.parent : m (Except FileFault Unit)) with
  | .error fault => return .error (.file fault)
  | .ok () =>
    let (text, recordFault) := write levels records
    match ← (FileAccess.write path text.toUTF8 : m (Except FileFault Unit)) with
    | .error fault => return .error (.file fault)
    | .ok () => return recordFault.elim (.ok records.length) fun fault => .error (.record fault)

def load (path : Path) : m (Except HistoryFault (List Value)) := do
  match ← (FileAccess.read path : m (Except FileFault ByteArray)) with
  | .error fault => return .error (.file fault)
  | .ok content =>
    match String.fromUTF8? content with
    | none => return .error .encoding
    | some text => return (read? text).elim (.error .malformed) .ok

end History

end TwoPhase
