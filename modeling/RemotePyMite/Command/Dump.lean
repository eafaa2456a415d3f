import RemotePyMite.Command.Report

/-! # What is in a module image

The report on a value, most often a code object and what is nested in it.
-/
namespace RemotePyMite

namespace Dump

def flags (h : CodeHeader) : String :=
  "0x" ++ String.ofList (Numeral.hexByte h.flags)

/-- The table for an image of `size` bytes. -/
def table (value : Value) (size : Nat) : List String :=
  match value with
  | .code h names consts _ =>
    Report.fieldTable
      [("name", Utf8.decode h.name), ("filename", Utf8.decode h.filename),
        ("image size", s!"{size} bytes"), ("code size", s!"{h.bytecode.length} bytes"),
        ("first line", toString h.firstLine.toNat), ("args", toString h.argCount.toNat),
        ("locals", toString h.localCount.toNat), ("stack size", toString h.stackSize.toNat),
        ("flags", flags h), ("names", Value.joinTexts names),
        ("consts", Value.joinTexts consts)]
  | other => [Table.render ⟨["TYPE", "VALUE"], [[other.kindName, other.text]]⟩]

def indent (depth : Nat) (text : String) : String :=
  String.ofList (List.replicate (2 * depth) ' ') ++ text

/-- The lines on a code object in front of its constants. -/
def codeLines (depth : Nat) (h : CodeHeader) (names : List Value) : List String :=
  [indent depth (String.ofList (Value.codeLine h)),
    indent (depth + 1)
      (s!"args={h.argCount.toNat} locals={h.localCount.toNat} stack={h.stackSize.toNat} " ++
        s!"flags={flags h} code={h.bytecode.length} bytes"),
    indent (depth + 1) s!"names: {Value.joinTexts names}",
    indent (depth + 1) "consts:"]

mutual
/-- The tree of a value: code objects with their constants below them, all other values on
one line. -/
def tree (depth : Nat) : Value → List String
  | .code h names consts _ => codeLines depth h names ++ trees (depth + 2) consts
  | other => [indent depth other.text]

def trees (depth : Nat) : List Value → List String
  | [] => []
  | value :: rest => tree depth value ++ trees depth rest
end

end Dump

/-- The report on the value in an image of `size` bytes. -/
def Report.dump (value : Value) (size : Nat) : Report where
  json := value.toJson
  table := Dump.table value size
  pretty := Dump.tree 0 value

end RemotePyMite
