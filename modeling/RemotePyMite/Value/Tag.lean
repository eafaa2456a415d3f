import RemotePyMite.Bytes

/-! # Tags

The first byte of a value says of what kind it is and how its length is written.  The
ten smallest integers are tags of their own.  A byte is the tag it is the byte of, and
no other: `ofByte?_byte` and `byte_of_ofByte?`.
-/
namespace RemotePyMite

/-- Whether a length takes one byte or two. -/
inductive LengthForm where
  | short
  | long
  deriving DecidableEq, Repr

def LengthForm.width : LengthForm → Nat
  | .short => 1
  | .long => 2

/-- The kinds of value as the first byte tells them apart. -/
inductive Tag where
  | none
  | true
  | false
  | digit (d : Fin 10)
  | int8
  | int16
  | int32
  | float
  | str (form : LengthForm)
  | tuple (form : LengthForm)
  | list (form : LengthForm)
  | dict (form : LengthForm)
  | code
  deriving DecidableEq, Repr

namespace Tag

def byte : Tag → UInt8
  | .none => 0x4E
  | .true => 0x54
  | .false => 0x46
  | .digit d => 0x30 + UInt8.ofNat d
  | .int8 => 0x42
  | .int16 => 0x48
  | .int32 => 0x49
  | .float => 0x52
  | .str .short => 0x73
  | .str .long => 0x53
  | .tuple .short => 0x28
  | .tuple .long => 0x29
  | .list .short => 0x5B
  | .list .long => 0x5D
  | .dict .short => 0x7B
  | .dict .long => 0x7D
  | .code => 0x43

def letters : List Tag :=
  [.none, .true, .false, .int8, .int16, .int32, .float, .str .short, .str .long,
    .tuple .short, .tuple .long, .list .short, .list .long, .dict .short, .dict .long, .code]

def ofByte? (b : UInt8) : Option Tag :=
  if h : 48 ≤ b.toNat ∧ b.toNat < 58 then some (.digit ⟨b.toNat - 48, by omega⟩)
  else letters.find? fun tag => tag.byte = b

theorem ofByte?_byte (tag : Tag) : ofByte? tag.byte = some tag := by
  cases tag with
  | digit d => revert d; decide
  | str form => cases form <;> decide
  | tuple form => cases form <;> decide
  | list form => cases form <;> decide
  | dict form => cases form <;> decide
  | _ => decide

theorem byte_of_ofByte? {b : UInt8} {tag : Tag} (h : ofByte? b = some tag) : tag.byte = b := by
  unfold ofByte? at h
  split at h
  · next hb =>
    cases h
    apply UInt8.toNat_inj.mp
    simp only [byte, UInt8.toNat_add, UInt8.toNat_ofNat', UInt8.toNat_ofNat]
    omega
  · simpa using List.find?_some h

end Tag

end RemotePyMite
