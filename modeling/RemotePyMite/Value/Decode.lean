import RemotePyMite.Cursor
import RemotePyMite.Value.Basic
import RemotePyMite.Value.Error
import RemotePyMite.Value.Tag

/-! # Reading a value

A reader works on a cursor: the bytes that are left, and how many were read before them,
which the errors report.  The reader of a value recurses on the number of levels that may
still be opened, so no input nests deeper than the limit; a value beyond it is refused
before its tag is looked at.
-/
namespace RemotePyMite

/-- How many levels below the outermost a value may lie. -/
def maxDepth : Nat := 64

/-- Reads something at a cursor and moves it. -/
abbrev Reader := StateT Cursor (Except ValueError)

namespace Reader

theorem bind_apply {α β : Type} (read : Reader α) (f : α → Reader β) (c : Cursor) :
    (read >>= f) c = (read c >>= fun p => f p.1 p.2) :=
  rfl

/-- How many bytes were read so far. -/
def position : Reader Nat :=
  return (← get).offset

def take (n : Nat) : Reader Bytes := fun c =>
  let taken := c.rest.take n
  if taken.length < n then .error (.truncated (n - taken.length) c.offset)
  else .ok (taken, c.advance n)

/-- The word in the next `width` bytes. -/
def word (width : Nat) : Reader Nat :=
  return Word.ofLittleEndian (← take width)

def byte : Reader UInt8 :=
  return UInt8.ofNat (← word 1)

/-- The same reader `n` times. -/
def times {α : Type} (n : Nat) (read : Reader α) : Reader (List α) :=
  match n with
  | 0 => return []
  | n + 1 => do
    let first ← read
    let rest ← times n read
    return first :: rest

/-- What `part` finds in a value that is read; the code object is defective if it finds
nothing. -/
def field {α : Type} (read : Reader Value) (part : Value → Option α) (defect : CodeDefect) :
    Reader α := do
  match part (← read) with
  | some found => return found
  | none => throw (.invalidCode defect)

/-- A code object behind its tag, the values in it read with `read`. -/
def codeObject (read : Reader Value) : Reader CodeObject := do
  let name ← field read Value.bytes? .name
  let filename ← field read Value.bytes? .filename
  let bytecode ← field read Value.bytes? .bytecode
  let lineTable ← field read Value.bytes? .lineTable
  let names ← field read Value.tuple? .names
  let consts ← field read Value.tuple? .consts
  let cellVars ← field read Value.tuple? .cellVars
  let firstLine ← word 2
  let argCount ← byte
  let flags ← byte
  let stackSize ← byte
  let localCount ← byte
  let freeVarCount ← byte
  return { name, filename, bytecode, lineTable, names, consts, cellVars,
           firstLine := UInt16.ofNat firstLine, argCount, flags, stackSize, localCount,
           freeVarCount }

/-- What stands behind a tag, the values in it read with `read`. -/
def content (read : Reader Value) : Tag → Reader Value
  | .none => return .none
  | .true => return .bool true
  | .false => return .bool false
  | .digit d => return .int (Int32.ofNat d)
  | .int8 => return .int (Int32.ofInt (Word.signed 1 (← word 1)))
  | .int16 => return .int (Int32.ofInt (Word.signed 2 (← word 2)))
  | .int32 => return .int (Int32.ofInt (Word.signed 4 (← word 4)))
  | .float => return .float ⟨UInt32.ofNat (← word 4)⟩
  | .str form => return .str (← take (← word form.width))
  | .tuple form => return .tuple (← times (← word form.width) read)
  | .list form => return .list (← times (← word form.width) read)
  | .dict form =>
    let entry := do
      let key ← read
      let item ← read
      return (key, item)
    return .dict (← times (← word form.width) entry)
  | .code => return (← codeObject read).toValue

/-- A value, which may open `levels` levels, itself included. -/
def value : Nat → Reader Value
  | 0 => throw (.tooDeep maxDepth)
  | levels + 1 => do
    let offset ← position
    let tag ← byte
    match Tag.ofByte? tag with
    | some tag => content (value levels) tag
    | none => throw (.unknownTag tag offset)

end Reader

namespace Value

/-- The value at the front of an input, and how many bytes it takes. -/
def decode (input : Bytes) : Except ValueError (Value × Nat) := do
  let (value, c) ← (Reader.value (maxDepth + 1)).run (.start input)
  return (value, c.offset)

/-- The value an input is the byte form of, from its first byte to its last. -/
def decodeAll (input : Bytes) : Except ValueError Value := do
  let (value, consumed) ← decode input
  if consumed ≠ input.length then throw (.trailing consumed input.length)
  return value

end Value

namespace CodeObject

/-- The code object of a module image, which holds nothing else. -/
def ofImage (image : Bytes) : Except ValueError CodeObject := do
  match (← Value.decodeAll image).code? with
  | some code => return code
  | none => throw (.invalidCode .image)

end CodeObject

end RemotePyMite
