import RemotePyMite.Bytes

/-! # The checksum of a frame

A cyclic redundancy check of sixteen bits.  The register holds a polynomial with its
bits reflected: the lowest bit is the coefficient of the highest power.  A byte goes in
with its lowest bit first; one shift multiplies the register by the unknown and reduces
it by the generator `x ^ 16 + x ^ 15 + x ^ 2 + 1`.
-/
namespace RemotePyMite.Checksum

/-- The generator without its leading power, bits reflected. -/
def generator : UInt16 := 0xA001

def initial : UInt16 := 0xFFFF

/-- The register after one more bit. -/
def shift (crc : UInt16) : UInt16 :=
  if crc &&& 1 = 1 then (crc >>> 1) ^^^ generator else crc >>> 1

def shifts : Nat → UInt16 → UInt16
  | 0, crc => crc
  | n + 1, crc => shifts n (shift crc)

def update (crc : UInt16) (b : UInt8) : UInt16 :=
  shifts 8 (crc ^^^ b.toUInt16)

def compute (bytes : Bytes) : UInt16 :=
  bytes.foldl update initial

@[simp] theorem compute_append (a b : Bytes) :
    compute (a ++ b) = b.foldl update (compute a) := by
  simp [compute]

end RemotePyMite.Checksum
