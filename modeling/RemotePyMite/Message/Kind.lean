/-! # Kinds of message

Ten kinds travel on a link, numbered from one.  Two more exist only inside the host: a
number that is reserved, and the mark for a frame whose checksum was wrong.
-/
namespace RemotePyMite

/-- The kinds of message. -/
inductive Kind where
  | defective
  | invalid
  | ack
  | nack
  | sync
  | threadPrintItem
  | threadPrintExpr
  | threadList
  | memList
  | memAddBlock
  | autorunList
  | threadStart
  deriving DecidableEq, Repr

namespace Kind

def id : Kind → Int
  | .defective => -1
  | .invalid => 0
  | .ack => 1
  | .nack => 2
  | .sync => 3
  | .threadPrintItem => 4
  | .threadPrintExpr => 5
  | .threadList => 6
  | .memList => 7
  | .memAddBlock => 8
  | .autorunList => 9
  | .threadStart => 10

def name : Kind → String
  | .defective => "Defective"
  | .invalid => "Invalid"
  | .ack => "Ack"
  | .nack => "Nack"
  | .sync => "Sync"
  | .threadPrintItem => "ThreadPrintItem"
  | .threadPrintExpr => "ThreadPrintExpr"
  | .threadList => "ThreadList"
  | .memList => "MemList"
  | .memAddBlock => "MemAddBlock"
  | .autorunList => "AutorunList"
  | .threadStart => "ThreadStart"

/-- The kinds that travel on a link. -/
def onWire : List Kind :=
  [.ack, .nack, .sync, .threadPrintItem, .threadPrintExpr, .threadList, .memList,
    .memAddBlock, .autorunList, .threadStart]

/-- The byte that stands for a kind on a link, if it may travel at all. -/
def wireId? : Kind → Option UInt8
  | .defective | .invalid => none
  | kind => some (UInt8.ofNat kind.id.toNat)

/-- The kind that a byte stands for on a link. -/
def ofWire? (b : UInt8) : Option Kind :=
  onWire.find? fun kind => kind.wireId? = some b

theorem ofWire?_eq_some_iff {b : UInt8} {kind : Kind} :
    ofWire? b = some kind ↔ kind.wireId? = some b := by
  constructor
  · intro h
    simpa using List.find?_some h
  · intro h
    cases kind <;> simp_all [wireId?] <;> subst h <;> decide

def messageText (kind : Kind) : String :=
  s!"<{kind.name}, type={kind.id}>"

end Kind

end RemotePyMite
