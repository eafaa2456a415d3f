import RemotePyMite.Text.Json
import RemotePyMite.Value.Print

/-! # Values as JSON

Tuples and lists become arrays, a dictionary an array of objects with a key and a value,
so that no entry is lost, and strings texts.  A number that is not finite becomes null.
The members of an object are in the order of their names.
-/
namespace RemotePyMite

/-- Floating point numbers in a JSON text: an exponent below a hundred-thousandth and from
ten to the sixteenth on, and ties go to the even digit. -/
def JsonValue.floatLayout : DecimalLayout where
  ties := .even
  leastFixed := -5
  greatestFixed := 15
  plusSign := true
  nan := "null"
  infinity := "null"

/-- A floating point number of four bytes with the fewest digits that tell it from the
other numbers of eight bytes. -/
def JsonValue.ofBinary32 (x : Binary32) : JsonValue :=
  match FloatFormat.binary32.ofBits x.bits.toNat with
  | .nan | .infinity _ => .null
  | .zero negative => .decimal (floatLayout.text (.zero negative))
  | .nonzero negative size =>
    .decimal (floatLayout.text
      (.nonzero negative (size.normalized FloatFormat.binary64.fractionBits)))

namespace Value

/-- The members that tell the fields of a code object. -/
def codeMembers (h : CodeHeader) (names consts cellVars : List JsonValue) :
    List (String × JsonValue) :=
  [("arg_count", .integer h.argCount.toNat),
    ("cellvars", .array cellVars),
    ("code_size", .integer h.bytecode.length),
    ("consts", .array consts),
    ("filename", .string (Utf8.decode h.filename)),
    ("first_line", .integer h.firstLine.toNat),
    ("flags", .integer h.flags.toNat),
    ("n_freevars", .integer h.freeVarCount.toNat),
    ("n_locals", .integer h.localCount.toNat),
    ("name", .string (Utf8.decode h.name)),
    ("names", .array names),
    ("stack_size", .integer h.stackSize.toNat),
    ("type", .string "code")]

mutual
def toJson : Value → JsonValue
  | .none => .null
  | .bool b => .bool b
  | .int i => .integer i.toInt
  | .float x => .ofBinary32 x
  | .str bytes => .string (Utf8.decode bytes)
  | .tuple items => .array (itemsToJson items)
  | .list items => .array (itemsToJson items)
  | .dict entries => .array (entriesToJson entries)
  | .code header names consts cellVars =>
    .object (codeMembers header (itemsToJson names) (itemsToJson consts) (itemsToJson cellVars))

def itemsToJson : List Value → List JsonValue
  | [] => []
  | item :: rest => toJson item :: itemsToJson rest

def entriesToJson : List (Value × Value) → List JsonValue
  | [] => []
  | (key, value) :: rest =>
    .object [("key", toJson key), ("value", toJson value)] :: entriesToJson rest
end

end Value

end RemotePyMite
