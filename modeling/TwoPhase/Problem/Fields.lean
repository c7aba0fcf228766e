import TwoPhase.Problem
import TwoPhase.Value.Array

/-!
Linear programs from loosely typed fields. The costs are read and checked first, then each block,
its arrays before its shape, and the offset last; the first fault is reported.
-/
namespace TwoPhase

/-- The fields of a program as they are given. A null block field counts as absent. -/
structure ProblemFields where
  cost : Option Value := none
  upperMatrix : Value := .null
  upperRhs : Value := .null
  equalMatrix : Value := .null
  equalRhs : Value := .null
  offset : Value := .float 0

inductive ProblemFault where
  | missingCost
  | array (fault : ArrayFault)
  | mismatch (fault : DimensionMismatch)
  deriving DecidableEq, Repr

def ProblemFault.message : ProblemFault → Option String
  | .missingCost => none
  | .array _ => none
  | .mismatch fault => some fault.message

namespace ProblemFields

def array? : Value → Except ProblemFault (Option (Tensor Float))
  | .null => .ok none
  | v => (v.floats.map some).mapError .array

def block (kind : BlockKind) (n : Nat) (a b : Value) : Except ProblemFault (Block Float n) := do
  let a ← array? a
  let b ← array? b
  (Block.ofTensors kind n a b).mapError .mismatch

end ProblemFields

def LinearProgram.ofFields (f : ProblemFields) : Except ProblemFault (LinearProgram Float) := do
  match f.cost with
  | none => .error .missingCost
  | some c =>
    let c ← c.floats.mapError .array
    let ⟨cost, cost_ne_nil⟩ ← (LinearProgram.costOfTensor c).mapError .mismatch
    let upper ← ProblemFields.block .inequality cost.length f.upperMatrix f.upperRhs
    let equal ← ProblemFields.block .equality cost.length f.equalMatrix f.equalRhs
    let offset ← f.offset.toFloat.mapError .array
    return { cost, upper, equal, offset, cost_ne_nil }

end TwoPhase
