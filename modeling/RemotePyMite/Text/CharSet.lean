/-! # Sets of characters

A set of characters is written as its runs: the number of the first and of the last
character of each, in ascending order.  A look-up stops at the first run that begins behind
the character.
-/
namespace RemotePyMite

/-- A set of characters, given by its runs in ascending order. -/
structure CharSet where
  runs : List (Nat × Nat)

namespace CharSet

def isIn (n : Nat) : List (Nat × Nat) → Bool
  | [] => false
  | (first, last) :: rest => if n < first then false else n ≤ last || isIn n rest

def contains (s : CharSet) (c : Char) : Bool :=
  isIn c.toNat s.runs

end CharSet

end RemotePyMite
