import RemotePyMite.Bytes

/-! # A place in an input -/
namespace RemotePyMite

/-- A place in an input: the bytes from there on, and how many came before. -/
structure Cursor where
  offset : Nat
  rest : Bytes
  deriving DecidableEq, Repr

namespace Cursor

def start (input : Bytes) : Cursor := ⟨0, input⟩

def advance (c : Cursor) (n : Nat) : Cursor :=
  ⟨c.offset + n, c.rest.drop n⟩

/-- Where the input ends. -/
def stop (c : Cursor) : Nat :=
  c.offset + c.rest.length

@[simp] theorem length_advance (c : Cursor) (n : Nat) :
    (c.advance n).rest.length = c.rest.length - n := by
  simp [advance]

theorem stop_advance {c : Cursor} {n : Nat} (h : n ≤ c.rest.length) :
    (c.advance n).stop = c.stop := by
  simp only [stop, advance, List.length_drop]
  omega

end Cursor

end RemotePyMite
