import TwoPhase.Grid

/-!
Arrays of any number of dimensions, entries in row-major order. A scalar has no dimensions and
one entry.
-/
namespace TwoPhase

universe u v

structure Tensor (α : Type u) where
  shape : List Nat
  entries : Array α
  size_entries : entries.size = shape.foldr (· * ·) 1

namespace Tensor

variable {α : Type u} {β : Type v}

def scalar (a : α) : Tensor α := ⟨[], #[a], rfl⟩

def ofList (xs : List α) : Tensor α := ⟨[xs.length], xs.toArray, by simp⟩

def map (f : α → β) (t : Tensor α) : Tensor β where
  shape := t.shape
  entries := t.entries.map f
  size_entries := by simp [t.size_entries]

def mapM {ε : Type v} (f : α → Except ε β) (t : Tensor α) : Except ε (Tensor β) := do
  let entries ← t.entries.toList.mapM f
  if h : entries.toArray.size = t.shape.foldr (· * ·) 1 then return ⟨t.shape, entries.toArray, h⟩
  else return ⟨[entries.length], entries.toArray, by simp⟩

def reshape? (t : Tensor α) (shape : List Nat) : Option (Tensor α) :=
  if h : t.entries.size = shape.foldr (· * ·) 1 then some ⟨shape, t.entries, h⟩ else none

def toGrid? [Zero α] (t : Tensor α) : Option (Grid α) :=
  match t.shape with
  | [h, w] => some (Grid.ofFn h w fun i j => t.entries[i * w + j]?.getD 0)
  | _ => none

/-- Axes of length one are dropped, but one axis at least is kept. -/
def squeeze (t : Tensor α) : Tensor α :=
  let shape := t.shape.filter (· ≠ 1)
  let shape := if shape.isEmpty then [1] else shape
  (t.reshape? shape).getD ⟨[t.entries.size], t.entries, by simp⟩

end Tensor

end TwoPhase
