import RemotePyMite.Command.Basic
import RemotePyMite.Message.MemoryMap
import RemotePyMite.Message.Sync
import RemotePyMite.Session.State
import RemotePyMite.Text.Table
import RemotePyMite.Value.Json

/-! # Reports

What a command has to say, in each of the forms a user can choose.
-/
namespace RemotePyMite

/-- A report in its three forms; a table and a pretty report are given line by line. -/
structure Report where
  json : JsonValue
  table : List String
  pretty : List String

namespace Report

def lines (r : Report) : OutputFormat → List String
  | .json => [r.json.render]
  | .table => r.table
  | .pretty => r.pretty

def padRight (width : Nat) (text : String) : String :=
  text ++ String.ofList (List.replicate (width - text.length) ' ')

def padLeft (width : Nat) (text : String) : String :=
  String.ofList (List.replicate (width - text.length) ' ') ++ text

/-- Two columns, a field a row. -/
def fieldTable (fields : List (String × String)) : List String :=
  [Table.render ⟨["FIELD", "VALUE"], fields.map fun (name, value) => [name, value]⟩]

/-- A title and a line for each field, the values below each other. -/
def fieldLines (title : String) (fields : List (String × String)) : List String :=
  let width := (fields.map (·.1.length)).foldl max 0
  s!"{title}:" ::
    fields.map fun (name, value) =>
      let label := padRight (width + 1) s!"{name}:"
      s!"  {label}  {value}"

def numberedTable (title : String) (texts : List String) : List String :=
  [Table.render ⟨["#", title],
    texts.zipIdx.map fun (text, place) => [toString place, text]⟩]

def sync (description : String) (p : SyncParameters) : Report :=
  let segment := Frame.segmentSizeFor p.receiveBufferSize
  let fields :=
    [("link", description), ("target id", p.idText),
      ("receive buffer", s!"{p.receiveBufferSize.toNat} bytes"),
      ("block segment", match segment with
        | some size => s!"{size} bytes"
        | none => "n/a"),
      ("word size", s!"{p.wordSize.toNat} bytes"), ("reset", toString p.reset)]
  { json := .object
      [("link", .string description), ("target_id", .string p.idText), ("reset", .bool p.reset),
        ("receive_buffer_size", .integer p.receiveBufferSize.toNat),
        ("segment_size", match segment with
          | some size => .integer size
          | none => .null),
        ("word_size", .integer p.wordSize.toNat), ("synchronized", .bool true)]
    table := fieldTable fields
    pretty := fieldLines "Target" fields }

def threads (addresses : List String) : Report where
  json := .object
    [("count", .integer addresses.length), ("threads", .strings addresses)]
  table := numberedTable "THREAD" addresses
  pretty := s!"{addresses.length} thread(s)" :: addresses.map fun address => s!"  {address}"

def memorySpace (index : UInt8) (s : MemorySpace) : JsonValue :=
  .object
    [("index", .integer index.toNat), ("name", .string s.name), ("size", .integer s.size.toNat),
      ("writeable", .bool s.writeable), ("modules", .bool (index == moduleSpace))]

def memory (map : MemoryMap) : Report where
  json := .array (map.spaces.map fun (index, s) => memorySpace index s)
  table := [Table.render ⟨["INDEX", "NAME", "SIZE", "WRITEABLE"],
    map.spaces.map fun (index, s) =>
      [toString index.toNat, s.name, toString s.size.toNat, if s.writeable then "yes" else "no"]⟩]
  pretty := map.spaces.map fun (index, s) =>
    let number := padLeft 3 (toString index.toNat)
    let name := padRight 16 s.name
    let size := padLeft 8 (toString s.size.toNat)
    let access := if s.writeable then "rw" else "ro"
    let use := if index == moduleSpace then "  (modules)" else ""
    s!"{number}  {name} {size} bytes  {access}{use}"

def autorun (updated : Bool) (names : List String) : Report where
  json := .object [("updated", .bool updated), ("modules", .strings names)]
  table := numberedTable "MODULE" names
  pretty :=
    if names.isEmpty then ["autorun list is empty"]
    else ["autorun: " ++ String.intercalate ", " names]

def start (moduleName : String) : Report :=
  let line := s!"started thread for module {moduleName}"
  { json := .object [("module", .string moduleName), ("started", .bool true)]
    table := [line]
    pretty := [line] }

def load (moduleName imagePath : String) (size : Nat) (started : Bool) : Report :=
  let fields :=
    [("module", moduleName), ("image", imagePath), ("bytes", toString size),
      ("memspace", toString moduleSpace.toNat), ("started", toString started)]
  { json := .object
      [("module", .string moduleName), ("image", .string imagePath), ("bytes", .integer size),
        ("memspace", .integer moduleSpace.toNat), ("started", .bool started)]
    table := fieldTable fields
    pretty := fieldLines "Loaded" fields }

/-- A line that a thread printed, with the address of the thread. -/
def outputLine (thread text : String) : Report :=
  let line := s!"[{thread}] {text}"
  { json := .object [("thread", .string thread), ("text", .string text)]
    table := [line]
    pretty := [line] }

end Report

end RemotePyMite
