import TwoPhase.Matrix.Arithmetic

/-!
Determinants by expansion along the first row. Only sums, differences and products are formed,
so integers and fractions stay exact.
-/
namespace TwoPhase

namespace Cofactor

variable {m : Type → Type} [Monad m] {α : Type} [Zero α] [Arithmetic m α]

def minor (rows : List (List α)) (col : Nat) : List (List α) := rows.map (·.eraseIdx col)

def entry (rows : List (List α)) (i j : Nat) : α := ((rows[i]?.getD [])[j]?).getD 0

/-- The determinant of the first `n` rows of a square array with `n` rows. Sizes up to two are
written out; from three on, the terms are added and subtracted in turn, starting from zero. -/
def expand : Nat → List (List α) → m α
  | 0, _ => return Arithmetic.unit m false
  | 1, rows => return entry rows 0 0
  | 2, rows => do
    let down ← Arithmetic.mul (m := m) (entry rows 0 0) (entry rows 1 1)
    let up ← Arithmetic.mul (m := m) (entry rows 1 0) (entry rows 0 1)
    Arithmetic.sub down up
  | n + 3, rows =>
    (List.range (n + 3)).foldlM
      (fun total col => do
        let d ← expand (n + 2) (minor (rows.drop 1) col)
        let term ← Arithmetic.mul (m := m) (entry rows 0 col) d
        if col % 2 = 0 then Arithmetic.add total term else Arithmetic.sub total term)
      0

end Cofactor

end TwoPhase
