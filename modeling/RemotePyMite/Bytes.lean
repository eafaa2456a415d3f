/-! # Byte strings

Everything that travels on a link, and every string a target holds, is a list of
bytes.  This module adds the two ways the rest of the library looks at one: as a
machine word of some width, in either byte order, and as a row of pieces of equal
length of which only the last may be shorter.
-/
namespace RemotePyMite

abbrev Bytes := List UInt8

namespace Word

/-- The low `width` bytes of `n`, least significant byte first. -/
def littleEndian : Nat → Nat → Bytes
  | 0, _ => []
  | width + 1, n => UInt8.ofNat n :: littleEndian width (n / 256)

/-- The number whose bytes are given least significant first. -/
def ofLittleEndian : Bytes → Nat
  | [] => 0
  | b :: rest => b.toNat + 256 * ofLittleEndian rest

/-- The low `width` bytes of `n`, most significant byte first. -/
def bigEndian (width n : Nat) : Bytes :=
  (littleEndian width n).reverse

/-- The number whose bytes are given most significant first. -/
def ofBigEndian (bytes : Bytes) : Nat :=
  bytes.foldl (fun n b => 256 * n + b.toNat) 0

/-- The two's complement reading of a word of `width` bytes. -/
def signed (width n : Nat) : Int :=
  (n : Int).bmod (Nat.pow 256 width)

/-- The word of `width` bytes whose two's complement reading is `i`. -/
def unsigned (width : Nat) (i : Int) : Nat :=
  (i % (Nat.pow 256 width : Nat)).toNat

@[simp] theorem length_littleEndian (width n : Nat) :
    (littleEndian width n).length = width := by
  induction width generalizing n with
  | zero => rfl
  | succ width ih => simp [littleEndian, ih]

@[simp] theorem length_bigEndian (width n : Nat) : (bigEndian width n).length = width := by
  simp [bigEndian]

/-- Reading back the low bytes of `n` gives `n` up to multiples of the word size. -/
theorem ofLittleEndian_littleEndian (width n : Nat) :
    ofLittleEndian (littleEndian width n) = n % Nat.pow 256 width := by
  rw [Nat.pow_eq]
  induction width generalizing n with
  | zero => simp [littleEndian, ofLittleEndian, Nat.mod_one]
  | succ width ih =>
    have hb : (UInt8.ofNat n).toNat = n % 256 := by simp
    rw [littleEndian, ofLittleEndian, ih, hb, Nat.pow_succ, Nat.mul_comm (256 ^ width) 256,
      Nat.mod_mul]

theorem ofLittleEndian_littleEndian_toNat (word : UInt16) :
    ofLittleEndian (littleEndian 2 word.toNat) = word.toNat := by
  rw [ofLittleEndian_littleEndian]
  exact Nat.mod_eq_of_lt word.toNat_lt

theorem ofLittleEndian_lt (bytes : Bytes) : ofLittleEndian bytes < Nat.pow 256 bytes.length := by
  rw [Nat.pow_eq]
  induction bytes with
  | nil => simp [ofLittleEndian]
  | cons b rest ih =>
    have hb := b.toNat_lt
    simp only [ofLittleEndian, List.length_cons, Nat.pow_succ]
    omega

end Word

namespace Bytes

/-- A byte string cut into pieces of `size` bytes; only the last may be shorter, and
none is empty.  A size of zero counts as one. -/
def pieces (size : Nat) : Bytes → List Bytes
  | [] => []
  | b :: rest => (b :: rest.take (size - 1)) :: pieces size (rest.drop (size - 1))
termination_by bytes => bytes.length
decreasing_by simp only [List.length_drop, List.length_cons]; omega

theorem flatten_pieces (size : Nat) (bytes : Bytes) : (pieces size bytes).flatten = bytes := by
  fun_induction pieces size bytes with
  | case1 => rfl
  | case2 b rest ih => simp [ih]

end Bytes

end RemotePyMite
