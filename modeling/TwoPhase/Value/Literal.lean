import TwoPhase.Decimal.Notation
import TwoPhase.Text.Quoted
import TwoPhase.Value

/-!
Values as literals, the form in which messages quote them.
-/
namespace TwoPhase

namespace Value

mutual

def literal : Value → String
  | .null => "None"
  | .bool b => if b then "True" else "False"
  | .int i => toString i
  | .float x => Decimal.shortestText x
  | .fraction q => s!"Fraction({q.num}, {q.den})"
  | .text s => Text.quoted s
  | .list items => "[" ++ ", ".intercalate (literals items) ++ "]"
  | .dict entries => "\x7b" ++ ", ".intercalate (entryLiterals entries) ++ "\x7d"
  | .set items =>
    if items.isEmpty then "set()" else "\x7b" ++ ", ".intercalate (literals items) ++ "\x7d"
  | .array cells => "array(" ++ cells.literal ++ ")"

def literals : List Value → List String
  | [] => []
  | v :: vs => v.literal :: literals vs

def entryLiterals : List (Value × Value) → List String
  | [] => []
  | (k, v) :: rest => (k.literal ++ ": " ++ v.literal) :: entryLiterals rest

end

end Value

end TwoPhase
