/-!
Signed positions: a negative one counts from the end. Main statement: a position resolves
exactly when it lies between minus the length and the length.
-/
namespace TwoPhase

/-- The place in a list of length `n` that a signed position names. -/
def position? (i : Int) (n : Nat) : Option Nat :=
  if 0 ≤ i then
    if i < n then some i.toNat else none
  else if -n ≤ i then some (i + n).toNat
  else none

theorem position?_lt {i : Int} {n k : Nat} (h : position? i n = some k) : k < n := by
  unfold position? at h
  split at h
  · split at h
    · rw [Option.some.injEq] at h
      omega
    · cases h
  · split at h
    · rw [Option.some.injEq] at h
      omega
    · cases h

@[simp] theorem position?_natCast {k n : Nat} (h : k < n) : position? (k : Int) n = some k := by
  simp [position?, h]

theorem position?_isSome_iff (i : Int) (n : Nat) :
    (position? i n).isSome ↔ -n ≤ i ∧ i < n := by
  unfold position?
  split
  · split <;> simp <;> omega
  · split <;> simp <;> omega

theorem position?_eq_none_iff {i : Int} {n : Nat} : position? i n = none ↔ i < -n ∨ n ≤ i := by
  rw [← Option.not_isSome_iff_eq_none, position?_isSome_iff]
  omega

end TwoPhase
