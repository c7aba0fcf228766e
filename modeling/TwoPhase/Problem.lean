import TwoPhase.Cell
import TwoPhase.Tensor

/-!
Linear programs `min c x + offset` subject to `A x ≤ b`, `A' x = b'`, `x ≥ 0`. A program holds
blocks that fit together; `ofTensors` brings arrays of any shape into this form or names the
first mismatch.
-/
namespace TwoPhase

universe u

inductive BlockKind where
  | inequality
  | equality
  deriving DecidableEq, Repr

def BlockKind.matrixName : BlockKind → String
  | .inequality => "A"
  | .equality => "A_eq"

def BlockKind.rhsName : BlockKind → String
  | .inequality => "b"
  | .equality => "b_eq"

inductive DimensionMismatch where
  | costNotColumn
  | costEmpty
  | notMatrix (block : BlockKind)
  | columns (block : BlockKind) (found expected : Nat)
  | rhs (block : BlockKind)
  deriving DecidableEq, Repr

def DimensionMismatch.message : DimensionMismatch → String
  | .costNotColumn => "objective vector c must be a single column"
  | .costEmpty => "objective vector c must not be empty"
  | .notMatrix block => "constraint matrix " ++ block.matrixName ++ " must be 2-D"
  | .columns block found expected =>
    s!"{block.matrixName} has {found} columns, expected {expected} to match c"
  | .rhs block =>
    s!"{block.rhsName} must be a vector with one entry per row of {block.matrixName}"

structure Block (α : Type u) (n : Nat) where
  matrix : Grid α
  rhs : List α
  width_matrix : matrix.width = n
  length_rhs : rhs.length = matrix.height

structure LinearProgram (α : Type u) where
  cost : List α
  upper : Block α cost.length
  equal : Block α cost.length
  offset : α
  cost_ne_nil : cost ≠ []

namespace Block

variable {α : Type u}

/-- The matrix of a block: absent, empty or without rows it has no rows and `n` columns. -/
def matrixOfTensor [Zero α] (kind : BlockKind) (n : Nat) :
    Option (Tensor α) → Except DimensionMismatch { g : Grid α // g.width = n }
  | none => .ok ⟨Grid.ofFn 0 n fun _ _ => 0, rfl⟩
  | some a =>
    match a.shape with
    | [0] => .ok ⟨Grid.ofFn 0 n fun _ _ => 0, rfl⟩
    | [h, w] =>
      if h = 0 then .ok ⟨Grid.ofFn 0 n fun _ _ => 0, rfl⟩
      else if w = n then
        .ok ⟨Grid.ofFn h n fun i j => a.entries[i * n + j]?.getD 0, rfl⟩
      else .error (.columns kind w n)
    | _ => .error (.notMatrix kind)

/-- The entries of a vector or a single column, if there are `m`. -/
def rhsOfTensor (kind : BlockKind) (m : Nat) :
    Option (Tensor α) → Except DimensionMismatch { xs : List α // xs.length = m }
  | none => if h : m = 0 then .ok ⟨[], h.symm⟩ else .error (.rhs kind)
  | some b =>
    match b.shape with
    | [_] | [_, 1] =>
      if h : b.entries.toList.length = m then .ok ⟨b.entries.toList, h⟩ else .error (.rhs kind)
    | _ => .error (.rhs kind)

def ofTensors [Zero α] (kind : BlockKind) (n : Nat) (a b : Option (Tensor α)) :
    Except DimensionMismatch (Block α n) := do
  let ⟨matrix, width_matrix⟩ ← matrixOfTensor kind n a
  let ⟨rhs, length_rhs⟩ ← rhsOfTensor kind matrix.height b
  return { matrix, rhs, width_matrix, length_rhs }

end Block

namespace LinearProgram

variable {α : Type u}

def costOfTensor (c : Tensor α) : Except DimensionMismatch { xs : List α // xs ≠ [] } :=
  match c.shape with
  | [_] | [_, 1] =>
    if h : c.entries.toList ≠ [] then .ok ⟨c.entries.toList, h⟩ else .error .costEmpty
  | _ => .error .costNotColumn

def ofTensors [Zero α] (c : Tensor α) (a b a' b' : Option (Tensor α)) (offset : α) :
    Except DimensionMismatch (LinearProgram α) := do
  let ⟨cost, cost_ne_nil⟩ ← costOfTensor c
  let upper ← Block.ofTensors .inequality cost.length a b
  let equal ← Block.ofTensors .equality cost.length a' b'
  return { cost, upper, equal, offset, cost_ne_nil }

variable (p : LinearProgram α)

def numCosts : Nat := p.cost.length

def inequalityRows : Nat := p.upper.matrix.height

def equalityRows : Nat := p.equal.matrix.height

def constraintRows : Nat := p.inequalityRows + p.equalityRows

def numVariables : Nat := p.numCosts + p.inequalityRows + p.equalityRows

end LinearProgram

end TwoPhase
