import TwoPhase.Decimal.Reading
import TwoPhase.Tensor
import TwoPhase.Text.Lines

/-!
Arrays in text files: one row for each line, numbers between commas, comments behind a number
sign. A line without characters before its comment is passed over. Axes of length one are
dropped, so a single row and a single column give the same vector.
-/
namespace TwoPhase

namespace Delimited

def splitFields : List Char → List (List Char)
  | [] => [[]]
  | ',' :: cs => [] :: splitFields cs
  | c :: cs =>
    match splitFields cs with
    | [] => [[c]]
    | field :: rest => (c :: field) :: rest

/-- The rows of a text that hold characters before their comment. -/
def dataLines (s : String) : List (List Char) :=
  ((Text.lines s).map (·.takeWhile (· ≠ '#'))).filter (!·.isEmpty)

def row? (line : List Char) : Option (List Float) :=
  (splitFields line).mapM fun field => Decimal.ofChars? (Text.strip Text.isBlank field)

/-- The array of rows of one length, its axes of length one dropped. -/
def ofRows? (rows : List (List Float)) : Option (Tensor Float) :=
  match rows with
  | [] => some (Tensor.ofList [])
  | first :: _ =>
    if rows.all (·.length = first.length) then
      ((Tensor.ofList rows.flatten).reshape? [rows.length, first.length]).map Tensor.squeeze
    else none

def read? (content : ByteArray) : Option (Tensor Float) := do
  ofRows? (← (dataLines (← String.fromUTF8? content)).mapM row?)

end Delimited

end TwoPhase
