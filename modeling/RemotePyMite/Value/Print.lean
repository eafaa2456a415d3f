import RemotePyMite.Value.Basic
import RemotePyMite.Text.Numeral
import RemotePyMite.Text.Shortest

/-! # The text of a value

Values as the target's own language writes them: a tuple of one item has a comma behind
it, and of a string only the printable ASCII characters stand for themselves, so two
values without floating point numbers and code objects never share a text.
-/
namespace RemotePyMite

/-- Floating point numbers in the text of a value: an exponent below a ten-thousandth and
from ten to the sixteenth on, and ties go up. -/
def Value.floatLayout : DecimalLayout where
  ties := .up
  leastFixed := -4
  greatestFixed := 15
  plusSign := false
  nan := "NaN"
  infinity := "inf"

namespace Value

/-- One byte inside a quoted string. -/
def escapeByte (b : UInt8) : List Char :=
  if b = 0x27 then ['\\', '\'']
  else if b = 0x5C then ['\\', '\\']
  else if b = 0x0A then ['\\', 'n']
  else if 0x20 ≤ b ∧ b ≤ 0x7E then [Char.ofNat b.toNat]
  else '\\' :: 'x' :: Numeral.hexByte b

def quote (bytes : Bytes) : List Char :=
  '\'' :: bytes.flatMap escapeByte ++ ['\'']

/-- The line that stands for a code object. -/
def codeLine (h : CodeHeader) : List Char :=
  "<code ".toList ++ Utf8.decodeChars h.name ++ " from ".toList ++
    Utf8.decodeChars h.filename ++ ", line ".toList ++ Numeral.decimal h.firstLine.toNat ++ ['>']

mutual
def chars : Value → List Char
  | .none => "None".toList
  | .bool true => "True".toList
  | .bool false => "False".toList
  | .int i => Numeral.integer i.toInt
  | .float x => floatLayout.text (FloatFormat.binary32.ofBits x.bits.toNat)
  | .str bytes => quote bytes
  | .tuple items =>
    '(' :: itemChars items ++ (if items.length = 1 then [','] else []) ++ [')']
  | .list items => '[' :: itemChars items ++ [']']
  | .dict entries => '{' :: entryChars entries ++ ['}']
  | .code h _ _ _ => codeLine h

def itemChars : List Value → List Char
  | [] => []
  | [item] => chars item
  | item :: rest => chars item ++ ',' :: ' ' :: itemChars rest

def entryChars : List (Value × Value) → List Char
  | [] => []
  | [(key, value)] => chars key ++ ':' :: ' ' :: chars value
  | (key, value) :: rest =>
    chars key ++ ':' :: ' ' :: (chars value ++ ',' :: ' ' :: entryChars rest)
end

def text (value : Value) : String :=
  String.ofList value.chars

def joinTexts (values : List Value) : String :=
  String.ofList (itemChars values)

end Value

end RemotePyMite
