import RemotePyMite.Text.Numeral

/-! # JSON texts

The compact JSON text of a value: no blanks, members of an object in the order given,
quotes, backslashes and control characters of a string escaped and all others as they
are.
-/
namespace RemotePyMite

/-- A JSON value.  A number that is not an integer is kept as its text. -/
inductive JsonValue where
  | null
  | bool (b : Bool)
  | integer (i : Int)
  | decimal (text : List Char)
  | string (text : String)
  | array (items : List JsonValue)
  | object (members : List (String × JsonValue))

namespace JsonValue

/-- One character inside a quoted string. -/
def escape (c : Char) : List Char :=
  if c = '"' then ['\\', '"']
  else if c = '\\' then ['\\', '\\']
  else if c = '\n' then ['\\', 'n']
  else if c = '\r' then ['\\', 'r']
  else if c = '\t' then ['\\', 't']
  else if c.toNat = 8 then ['\\', 'b']
  else if c.toNat = 12 then ['\\', 'f']
  else if c.toNat < 32 then '\\' :: 'u' :: '0' :: '0' :: Numeral.hexByte (UInt8.ofNat c.toNat)
  else [c]

def quote (text : String) : List Char :=
  '"' :: text.toList.flatMap escape ++ ['"']

mutual
def chars : JsonValue → List Char
  | .null => "null".toList
  | .bool true => "true".toList
  | .bool false => "false".toList
  | .integer i => Numeral.integer i
  | .decimal text => text
  | .string text => quote text
  | .array items => '[' :: itemChars items ++ [']']
  | .object members => '{' :: memberChars members ++ ['}']

def itemChars : List JsonValue → List Char
  | [] => []
  | [item] => chars item
  | item :: rest => chars item ++ ',' :: itemChars rest

def memberChars : List (String × JsonValue) → List Char
  | [] => []
  | [(name, value)] => quote name ++ ':' :: chars value
  | (name, value) :: rest => quote name ++ ':' :: (chars value ++ ',' :: memberChars rest)
end

def render (value : JsonValue) : String :=
  String.ofList value.chars

def strings (texts : List String) : JsonValue :=
  .array (texts.map .string)

end JsonValue

end RemotePyMite
