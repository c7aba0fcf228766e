import TwoPhase.Json.Printer
import TwoPhase.Json.Reader
import TwoPhase.Solver.Outcome
import TwoPhase.Text.Blank
import TwoPhase.Text.Lines

/-!
Pivot histories as JSON lines. Writing stops at the first record that has no written form, and
what stands before it stays; reading passes over blank lines.
-/
namespace TwoPhase

/-- A pivot, or any value that can be taken as a mapping. -/
inductive Record where
  | step (s : Step Value)
  | value (v : Value)

inductive RecordFault where
  /-- The record, or one of its entries, is no collection. -/
  | notMapping
  /-- An entry is no pair. -/
  | notPair
  | badKey
  | print (fault : Json.PrintFault)
  deriving DecidableEq, Repr

def RecordFault.message : RecordFault → Option String
  | .print fault => fault.message
  | _ => none

def Step.entries (s : Step Value) : List (Value × Value) :=
  let number (n : Nat) : Value := .int n
  [ (.text "phase", number s.phase)
  , (.text "iteration", number s.iteration)
  , (.text "row", number s.row)
  , (.text "col", number s.col)
  , (.text "entering", .int s.entering)
  , (.text "leaving", .int s.leaving)
  , (.text "objective", s.objective)
  , (.text "basis", .list (s.basis.map .int))
  , (.text "nonbasis", .list (s.nonbasis.map .int)) ]

def Step.mapObjective {α β : Type} (f : α → β) (s : Step α) : Step β :=
  { s with objective := f s.objective }

namespace Record

def pair (v : Value) : Except RecordFault (Value × Value) :=
  match v.items? with
  | some [k, v] => if k.isScalar then .ok (k, v) else .error .badKey
  | some _ => .error .notPair
  | none => .error .notMapping

/-- A value as a mapping: a dictionary, or pairs of which the last of a key counts. -/
def mapping (v : Value) : Except RecordFault (List (Value × Value)) :=
  match v with
  | .dict entries => .ok entries
  | v => do
    match v.items? with
    | some parts => return Value.ofPairs (← parts.mapM pair)
    | none => .error .notMapping

def line (levels : Nat) : Record → Except RecordFault String
  | .step s => (Json.print levels (.dict s.entries)).mapError .print
  | .value v => do (Json.print levels (.dict (← mapping v))).mapError .print

end Record

namespace History

/-- The lines of the records before the first fault, and the fault. -/
def lines (levels : Nat) : List Record → List String × Option RecordFault
  | [] => ([], none)
  | r :: rest =>
    match r.line levels with
    | .error fault => ([], some fault)
    | .ok text =>
      let (texts, fault) := lines levels rest
      (text :: texts, fault)

def write (levels : Nat) (records : List Record) : String × Option RecordFault :=
  let (texts, fault) := lines levels records
  (String.join (texts.map (· ++ "\n")), fault)

def read? (text : String) : Option (List Value) :=
  ((Text.lines text).filter fun line => !line.all Text.isBlank).mapM fun line =>
    Json.read? (String.ofList line)

end History

end TwoPhase
