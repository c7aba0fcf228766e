/-!
Powers of the two bases that digits are counted in.
-/
namespace TwoPhase

def twoTo (n : Nat) : Nat := Nat.pow 2 n

def tenTo (n : Nat) : Nat := Nat.pow 10 n

end TwoPhase
