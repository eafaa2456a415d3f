import RemotePyMite.Bytes
import RemotePyMite.Text.Utf8

/-! # Values of the target machine

The values a target understands.  Strings are byte strings, for the target has no notion
of a text encoding; the entries of a dictionary keep their order, and a key may occur
twice.  A code object is a header of plain fields and three rows of values.
-/
namespace RemotePyMite

/-- A floating point number of four bytes.  Two of them are equal if their bits are. -/
structure Binary32 where
  bits : UInt32
  deriving DecidableEq, Repr

/-- The fields of a code object that hold no values. -/
structure CodeHeader where
  name : Bytes
  filename : Bytes
  bytecode : Bytes
  lineTable : Bytes
  firstLine : UInt16
  argCount : UInt8
  flags : UInt8
  stackSize : UInt8
  localCount : UInt8
  freeVarCount : UInt8
  deriving DecidableEq, Repr

/-- A value of the target machine. -/
inductive Value where
  | none
  | bool (b : Bool)
  | int (i : Int32)
  | float (x : Binary32)
  | str (bytes : Bytes)
  | tuple (items : List Value)
  | list (items : List Value)
  | dict (entries : List (Value × Value))
  | code (header : CodeHeader) (names consts cellVars : List Value)

/-- A compiled module or function as the target loads it. -/
structure CodeObject extends CodeHeader where
  names : List Value
  consts : List Value
  cellVars : List Value

namespace CodeObject

def toValue (c : CodeObject) : Value :=
  .code c.toCodeHeader c.names c.consts c.cellVars

/-- A code object with a name and a file name and nothing in it. -/
def empty (name filename : String) : CodeObject where
  name := Utf8.encode name
  filename := Utf8.encode filename
  bytecode := []
  lineTable := []
  firstLine := 1
  argCount := 0
  flags := 0
  stackSize := 0
  localCount := 0
  freeVarCount := 0
  names := []
  consts := []
  cellVars := []

def nameText (c : CodeObject) : String :=
  Utf8.decode c.name

end CodeObject

namespace Value

def bytes? : Value → Option Bytes
  | .str bytes => some bytes
  | _ => Option.none

def int? : Value → Option Int32
  | .int i => some i
  | _ => Option.none

def code? : Value → Option CodeObject
  | .code header names consts cellVars => some ⟨header, names, consts, cellVars⟩
  | _ => Option.none

def tuple? : Value → Option (List Value)
  | .tuple items => some items
  | _ => Option.none

def kindName : Value → String
  | .none => "none"
  | .bool _ => "bool"
  | .int _ => "int"
  | .float _ => "float"
  | .str _ => "str"
  | .tuple _ => "tuple"
  | .list _ => "list"
  | .dict _ => "dict"
  | .code .. => "code"

@[simp] theorem code?_toValue (c : CodeObject) : c.toValue.code? = some c := rfl

end Value

end RemotePyMite
