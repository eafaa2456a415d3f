import RemotePyMite.Value.Decode
import RemotePyMite.Value.Encode

/-! # The heads in a byte form

Each value in a byte form, at any depth, starts with a head: its tag and the number behind the tag, if
the tag calls for one.  The heads alone say which forms were chosen, and so whether each of them is the
smallest there is (`Head.isMinimal`).
-/
namespace RemotePyMite

/-- The bytes of the number behind a tag. -/
def Tag.width : Tag → Nat
  | .int8 => 1
  | .int16 => 2
  | .int32 | .float => 4
  | .str form | .tuple form | .list form | .dict form => form.width
  | _ => 0

/-- A tag and the number behind it. -/
structure Head where
  tag : Tag
  number : Nat
  deriving DecidableEq, Repr

namespace Head

def bytes (head : Head) : Bytes :=
  head.tag.byte :: Word.littleEndian head.tag.width head.number

/-- How many bytes of text stand behind the head. -/
def textLength : Head → Nat
  | ⟨.str _,number⟩ => number
  | _ => 0

/-- How many values stand behind the text. -/
def children : Head → Nat
  | ⟨.tuple _,number⟩ | ⟨.list _,number⟩ => number
  | ⟨.dict _,number⟩ => 2 * number
  | ⟨.code,_⟩ => 7
  | _ => 0

/-- How many bytes of plain fields stand behind the values. -/
def trailerLength : Head → Nat
  | ⟨.code,_⟩ => 7
  | _ => 0

/-- No smaller head says the same. -/
def isMinimal : Head → Bool
  | ⟨.int8,number⟩ => ¬(0 ≤ Word.signed 1 number ∧ Word.signed 1 number < 10)
  | ⟨.int16,number⟩ => ¬(-128 ≤ Word.signed 2 number ∧ Word.signed 2 number ≤ 127)
  | ⟨.int32,number⟩ => ¬(-32768 ≤ Word.signed 4 number ∧ Word.signed 4 number ≤ 32767)
  | ⟨.str .long,number⟩ | ⟨.tuple .long,number⟩ | ⟨.list .long,number⟩ | ⟨.dict .long,number⟩ =>
    255 < number
  | _ => true

end Head

namespace Reader

/-- The heads of what stands at a tag, those of the values in it read with `read`. -/
def headsOf (read : Reader (List Head)) (tag : Tag) : Reader (List Head) := do
  let number ← word tag.width
  let head : Head := ⟨tag,number⟩
  let _ ← take head.textLength
  let inner ← times head.children read
  let _ ← take head.trailerLength
  return head :: inner.flatten

/-- The heads of a value, its own first, if it opens at most `levels` levels. -/
def heads : Nat → Reader (List Head)
  | 0 => throw (.tooDeep maxDepth)
  | levels + 1 => do
    let offset ← position
    let tag ← byte
    match Tag.ofByte? tag with
    | some tag => headsOf (heads levels) tag
    | none => throw (.unknownTag tag offset)

end Reader

/-- The heads of the value at the front of an input, and how many bytes it takes. -/
def Value.heads (input : Bytes) : Except ValueError (List Head × Nat) := do
  let (heads,c) ← (Reader.heads (maxDepth + 1)).run (.start input)
  return (heads,c.offset)

end RemotePyMite
