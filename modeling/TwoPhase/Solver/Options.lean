import TwoPhase.Value.Literal

/-!
Options of a solve: whether each tableau is shown, and how many pivots a phase may make.
-/
namespace TwoPhase

structure Options where
  verbose : Bool := false
  maxIterations : Nat := 8
  maxIterations_pos : 0 < maxIterations := by decide

inductive OptionFault where
  | verbose (found : Value)
  | maxIterations (found : Value)
  | notPositive

def OptionFault.message : OptionFault → String
  | .verbose found => "verbose must be a bool, got " ++ found.literal
  | .maxIterations found => "max_iterations must be an integer, got " ++ found.literal
  | .notPositive => "max_iterations must be a positive integer"

namespace Options

def withMaxIterations (o : Options) (i : Int) : Except OptionFault Options :=
  if h : 0 < i.toNat then
    .ok { verbose := o.verbose, maxIterations := i.toNat, maxIterations_pos := h }
  else .error .notPositive

def ofValues (verbose maxIterations : Value) : Except OptionFault Options :=
  match verbose, maxIterations with
  | .bool b, .int i => withMaxIterations { verbose := b } i
  | .bool _, v => .error (.maxIterations v)
  | v, _ => .error (.verbose v)

end Options

end TwoPhase
