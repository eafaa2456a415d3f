import RemotePyMite.Bytes

/-! # Text in bytes

Bytes that are not UTF-8 still have a text: every longest piece that starts like a
character but does not become one is read as one replacement character.  A byte
that cannot start a character is such a piece of its own.
-/
namespace RemotePyMite.Utf8

/-- The character that stands for bytes that are not text. -/
def replacement : Char := '\uFFFD'

def encode (text : String) : Bytes :=
  text.toList.flatMap String.utf8EncodeChar

/-- The bytes that may continue a character. -/
def isTail (b : UInt8) : Bool :=
  0x80 ≤ b && b ≤ 0xBF

/-- The bytes that may follow the first byte `a` of a character of three or four
bytes: the overlong forms, the surrogates and what lies beyond the last character
are cut off. -/
def isSecond (a b : UInt8) : Bool :=
  if a = 0xE0 then 0xA0 ≤ b && b ≤ 0xBF
  else if a = 0xED then 0x80 ≤ b && b ≤ 0x9F
  else if a = 0xF0 then 0x90 ≤ b && b ≤ 0xBF
  else if a = 0xF4 then 0x80 ≤ b && b ≤ 0x8F
  else isTail b

/-- The six bits that a continuing byte adds. -/
def tailBits (b : UInt8) : Nat :=
  b.toNat % 64

/-- What the first byte `a` starts, given the bytes behind it: a character or nothing,
and how many of the bytes behind it belong to it. -/
def scan (a : UInt8) (rest : Bytes) : Option Char × Nat :=
  if a < 0x80 then (some (Char.ofNat a.toNat), 0)
  else if 0xC2 ≤ a && a ≤ 0xDF then
    match rest with
    | b :: _ =>
      if isTail b then (some (Char.ofNat (a.toNat % 32 * 64 + tailBits b)), 1) else (none, 0)
    | [] => (none, 0)
  else if 0xE0 ≤ a && a ≤ 0xEF then
    match rest with
    | b :: c :: _ =>
      if !isSecond a b then (none, 0)
      else if !isTail c then (none, 1)
      else (some (Char.ofNat ((a.toNat % 16 * 64 + tailBits b) * 64 + tailBits c)), 2)
    | [b] => (none, if isSecond a b then 1 else 0)
    | [] => (none, 0)
  else if 0xF0 ≤ a && a ≤ 0xF4 then
    match rest with
    | b :: c :: d :: _ =>
      if !isSecond a b then (none, 0)
      else if !isTail c then (none, 1)
      else if !isTail d then (none, 2)
      else (some (Char.ofNat
        (((a.toNat % 8 * 64 + tailBits b) * 64 + tailBits c) * 64 + tailBits d)), 3)
    | [b, c] => (none, if !isSecond a b then 0 else if !isTail c then 1 else 2)
    | [b] => (none, if isSecond a b then 1 else 0)
    | [] => (none, 0)
  else (none, 0)

/-- The characters of a byte string, with the replacement character for every piece
that is not text. -/
def decodeChars : Bytes → List Char
  | [] => []
  | a :: rest =>
    (scan a rest).1.getD replacement :: decodeChars (rest.drop (scan a rest).2)
termination_by bytes => bytes.length
decreasing_by simp only [List.length_drop, List.length_cons]; omega

def decode (bytes : Bytes) : String :=
  String.ofList (decodeChars bytes)

end RemotePyMite.Utf8
