import TwoPhase.Tableau

/-!
Pivoting in two buffers: each exchange is written over what the hidden buffer holds from an
earlier one, and then the buffers change roles. The hidden buffer is filled once as a whole, and
the pivot row, the pivot column and the pivot cell are written again after that.
-/
namespace TwoPhase

universe u

namespace Grid

variable {α : Type u} [Zero α]

def overwrite (g : Grid α) (test : Nat → Nat → Bool) (value : Nat → Nat → α) : Grid α :=
  ofFn g.height g.width fun i j => if test i j then value i j else g.cell i j

@[simp] theorem width_overwrite (g : Grid α) (test : Nat → Nat → Bool) (value : Nat → Nat → α) :
    (g.overwrite test value).width = g.width := rfl

@[simp] theorem height_overwrite (g : Grid α) (test : Nat → Nat → Bool) (value : Nat → Nat → α) :
    (g.overwrite test value).height = g.height := height_ofFn ..

theorem cell_overwrite (g : Grid α) (test : Nat → Nat → Bool) (value : Nat → Nat → α) {i j : Nat}
    (hi : i < g.height) (hj : j < g.width) :
    (g.overwrite test value).cell i j = if test i j then value i j else g.cell i j :=
  cell_ofFn _ _ _ hi hj

end Grid

structure Buffers (α : Type u) where
  front : Grid α
  back : Grid α
  height_back : back.height = front.height
  width_back : back.width = front.width

namespace Buffers

variable {α : Type u} [Cell α]

def fill (old target : Grid α) (r c : Nat) : Grid α :=
  let pv := old.cell r c
  (((target.overwrite (fun _ _ => true) fun i j =>
        old.cell i j - old.cell i c * old.cell r j / pv).overwrite
      (fun i _ => i == r) fun _ j => old.cell r j / pv).overwrite
    (fun _ j => j == c) fun i _ => -old.cell i c / pv).overwrite
  (fun i j => i == r && j == c) fun _ _ => 1 / pv

def pivot (b : Buffers α) (r c : Nat) : Buffers α where
  front := fill b.front b.back r c
  back := b.front
  height_back := by simp [fill, b.height_back]
  width_back := by simp [fill, b.width_back]

@[simp] theorem width_front_pivot (b : Buffers α) (r c : Nat) :
    (b.pivot r c).front.width = b.front.width := by
  simp [pivot, fill, b.width_back]

end Buffers

/-- A tableau in two buffers. Its cells are those of the front grid. -/
structure Buffered (α : Type u) where
  buffers : Buffers α
  basis : List Int
  nonbasis : List Int
  width_front : buffers.front.width = nonbasis.length + 1

namespace Buffered

variable {α : Type u}

def visible (b : Buffered α) : Tableau α where
  cells := b.buffers.front
  basis := b.basis
  nonbasis := b.nonbasis
  width_cells := b.width_front

def pivot [Cell α] (b : Buffered α) (row col : Int) : Buffered α × Option TableauFault :=
  match position? row b.buffers.front.height, position? col b.buffers.front.width with
  | some r, some c =>
    if Cell.isZero (b.buffers.front.cell r c) then (b, some (.zeroPivot row col))
    else
      let buffers := b.buffers.pivot r c
      match position? row b.basis.length, position? col b.nonbasis.length with
      | some i, some j =>
        ({ buffers
           basis := b.basis.set i (b.nonbasis[j]?.getD 0)
           nonbasis := b.nonbasis.set j (b.basis[i]?.getD 0)
           width_front := by simp [buffers, b.width_front] }, none)
      | _, _ =>
        ({ b with
           buffers
           width_front := by simp [buffers, b.width_front] }, some .outOfRange)
  | _, _ => (b, some .outOfRange)

def run [Cell α] (b : Buffered α) (cells : List (Nat × Nat)) : Buffered α :=
  cells.foldl (fun b (r, c) => (b.pivot r c).1) b

end Buffered

end TwoPhase
