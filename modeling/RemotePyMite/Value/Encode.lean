import RemotePyMite.Value.Basic
import RemotePyMite.Value.Error
import RemotePyMite.Value.Tag

/-! # The byte form of a value

A value is written to a buffer as its tag and what the tag calls for, behind what the buffer
holds.  Every integer and every length takes the smallest form that fits.  A length beyond
two bytes has no form: then the writing ends in front of that length's tag with an error that
says which length it was, and what was written before it stays.
-/
namespace RemotePyMite

/-- The greatest length a value can have. -/
def maxLength : Nat := 65535

/-- What a buffer holds, and why the writing to it ended early if it did. -/
structure Output where
  bytes : Bytes
  error : Option ValueError := none
  deriving DecidableEq, Repr

namespace Output

def ok (bytes : Bytes) : Output := ⟨bytes, none⟩

/-- The bytes of an output that did not end early. -/
def result (a : Output) : Except ValueError Bytes :=
  match a.error with
  | some e => .error e
  | none => .ok a.bytes

end Output

/-- Something that is written to a buffer, perhaps not to its end. -/
abbrev Writing := EStateM ValueError (Array UInt8) Unit

namespace Writing

def put (bytes : Bytes) : Writing :=
  modify fun buffer : Array UInt8 => buffer ++ bytes

/-- What a buffer holds after a writing. -/
def output (w : Writing) (buffer : Bytes) : Output :=
  match w.run buffer.toArray with
  | .ok _ after => .ok after.toList
  | .error e after => ⟨after.toList, some e⟩

end Writing

namespace Value
open Writing (put)

/-- A tag and the length behind it, in the form that `tag` makes of the smallest that fits. -/
def writeLength (what : Counted) (tag : LengthForm → Tag) (length : Nat) : Writing :=
  if length ≤ 255 then put ((tag .short).byte :: Word.littleEndian 1 length)
  else if length ≤ maxLength then put ((tag .long).byte :: Word.littleEndian 2 length)
  else throw (.lengthOutOfRange what length maxLength)

/-- An integer in the smallest of its forms. -/
def encodeInt (i : Int) : Bytes :=
  if h : 0 ≤ i ∧ i < 10 then [(Tag.digit ⟨i.toNat, by omega⟩).byte]
  else if -128 ≤ i ∧ i ≤ 127 then Tag.int8.byte :: Word.littleEndian 1 (Word.unsigned 1 i)
  else if -32768 ≤ i ∧ i ≤ 32767 then Tag.int16.byte :: Word.littleEndian 2 (Word.unsigned 2 i)
  else Tag.int32.byte :: Word.littleEndian 4 (Word.unsigned 4 i)

def writeStr (bytes : Bytes) : Writing := do
  writeLength .string .str bytes.length
  put bytes

/-- The plain fields of a code object behind its values. -/
def encodeTrailer (h : CodeHeader) : Bytes :=
  Word.littleEndian 2 h.firstLine.toNat ++
    [h.argCount, h.flags, h.stackSize, h.localCount, h.freeVarCount]

mutual
def write : Value → Writing
  | .none => put [Tag.none.byte]
  | .bool true => put [Tag.true.byte]
  | .bool false => put [Tag.false.byte]
  | .int i => put (encodeInt i.toInt)
  | .float x => put (Tag.float.byte :: Word.littleEndian 4 x.bits.toNat)
  | .str bytes => writeStr bytes
  | .tuple items => do
    writeLength .tuple .tuple items.length
    writeItems items
  | .list items => do
    writeLength .list .list items.length
    writeItems items
  | .dict entries => do
    writeLength .dict .dict entries.length
    writeEntries entries
  | .code h names consts cellVars => do
    put [Tag.code.byte]
    writeStr h.name
    writeStr h.filename
    writeStr h.bytecode
    writeStr h.lineTable
    writeLength .tuple .tuple names.length
    writeItems names
    writeLength .tuple .tuple consts.length
    writeItems consts
    writeLength .tuple .tuple cellVars.length
    writeItems cellVars
    put (encodeTrailer h)

def writeItems : List Value → Writing
  | [] => return
  | item :: rest => do
    write item
    writeItems rest

def writeEntries : List (Value × Value) → Writing
  | [] => return
  | (key, value) :: rest => do
    write key
    write value
    writeEntries rest
end

/-- Writes a value behind what a buffer holds.  An error leaves there what was written
before it. -/
def encodeInto (value : Value) (buffer : Bytes) : Output :=
  value.write.output buffer

def encode (value : Value) : Output :=
  value.encodeInto []

end Value

end RemotePyMite
