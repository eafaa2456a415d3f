import RemotePyMite.Bytes
import RemotePyMite.Message.Error

/-! # Blocks for a memory space

Data that the host appends to a memory space of the target.  What fits into one frame
travels behind the number of the space.  Anything longer is cut into segments: the first
starts with the total length and the number of the space, all but the last are full, and
the last is shorter, if need be empty.
-/
namespace RemotePyMite

/-- The memory space that holds the modules a target can run. -/
def moduleSpace : UInt8 := 7

/-- The greatest total length that fits in front of the first segment. -/
def maxBlockLength : Nat := 65535

structure Block where
  data : Bytes
  deriving DecidableEq, Repr

namespace Block

/-- The pieces of `rest`, with an empty one behind them if they are all full. -/
def tail (size : Nat) (rest : Bytes) : List Block :=
  ((rest.pieces size).map Block.mk) ++ if rest.length % size = 0 then [⟨[]⟩] else []

/-- The segments of a block for a memory space, none longer than `size`. -/
def segments (space : UInt8) (data : Bytes) (size : Nat) : Except MessageError (List Block) :=
  if size ≤ 3 then
    .error (.malformed .memAddBlock s!"segment size {size} cannot carry a block header")
  else if data.length + 1 < size then .ok [⟨space :: data⟩]
  else if maxBlockLength < data.length then
    .error (.tooLong .memAddBlock data.length maxBlockLength)
  else
    .ok (⟨Word.littleEndian 2 data.length ++ space :: data.take (size - 3)⟩ ::
      tail size (data.drop (size - 3)))

end Block

end RemotePyMite
