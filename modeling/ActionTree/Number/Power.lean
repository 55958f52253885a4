/-!
Powers of the two bases that numbers are written in.
-/

namespace ActionTree

abbrev twoTo (n : Nat) : Nat := Nat.pow 2 n

abbrev tenTo (n : Nat) : Nat := Nat.pow 10 n

end ActionTree
