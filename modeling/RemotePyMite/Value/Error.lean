import RemotePyMite.Text.Numeral

/-! # What can go wrong with the byte form of a value -/
namespace RemotePyMite

/-- The things whose length is written in front of them. -/
inductive Counted where
  | string
  | tuple
  | list
  | dict
  deriving DecidableEq, Repr

def Counted.name : Counted → String
  | .string => "string length"
  | .tuple => "tuple length"
  | .list => "list length"
  | .dict => "dict length"

/-- Why a value is not a well-formed code object. -/
inductive CodeDefect where
  | name
  | filename
  | bytecode
  | lineTable
  | names
  | consts
  | cellVars
  /-- A module image holds some other value. -/
  | image
  deriving DecidableEq, Repr

def CodeDefect.message : CodeDefect → String
  | .name => "name must be a string"
  | .filename => "filename must be a string"
  | .bytecode => "bytecode must be a string"
  | .lineTable => "line table must be a string"
  | .names => "names must be a tuple"
  | .consts => "consts must be a tuple"
  | .cellVars => "cellvars must be a tuple"
  | .image => "module image does not hold a code object"

/-- Why a value has no byte form, or bytes have no value. -/
inductive ValueError where
  | unknownTag (tag : UInt8) (offset : Nat)
  /-- The input ends `needed` bytes too early. -/
  | truncated (needed offset : Nat)
  | lengthOutOfRange (what : Counted) (length max : Nat)
  | tooDeep (limit : Nat)
  | invalidCode (defect : CodeDefect)
  /-- Bytes behind a value that should end the input. -/
  | trailing (consumed total : Nat)
  deriving DecidableEq, Repr

namespace ValueError

def message : ValueError → String
  | .unknownTag tag offset =>
    let digits := String.ofList (Numeral.upperHexByte tag)
    s!"unknown marshal tag 0x{digits} at offset {offset}"
  | .truncated needed offset => s!"truncated input: need {needed} more bytes at offset {offset}"
  | .lengthOutOfRange what length max => s!"{what.name} out of range ({length}, max {max})"
  | .tooDeep limit => s!"nesting deeper than {limit} levels"
  | .invalidCode defect => s!"invalid code object: {defect.message}"
  | .trailing consumed total =>
    s!"trailing bytes after value ({consumed} of {total} consumed)"

end ValueError

end RemotePyMite
