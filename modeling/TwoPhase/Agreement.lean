import TwoPhase.Number

/-!
The objective of a solve against that of a reference.
-/
namespace TwoPhase

inductive ReferenceFault where
  | unsolved (message : String)
  | brokenOff (reason : String)
  deriving DecidableEq, Repr

/-- Whether an objective agrees with a reference within a tolerance, which is relative where the
reference exceeds one. -/
def objectivesAgree (objective reference tolerance : Number) : Except ArithmeticFault Bool := do
  let error ← objective.sub reference
  let size := if (Number.float 1).lt reference.abs then reference.abs else .float 1
  return error.abs.le (← tolerance.mul size)

end TwoPhase
