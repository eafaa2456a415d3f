import RemotePyMite.Message.Autorun
import RemotePyMite.Message.Block
import RemotePyMite.Message.MemoryMap
import RemotePyMite.Message.Sync
import RemotePyMite.Message.Thread

/-! # Messages

A message is the data of its kind.  Any data has a message of every kind that travels,
link parameters excepted, which need nineteen bytes; acknowledgments carry nothing and
ignore what comes with them.
-/
namespace RemotePyMite

/-- A message between host and target. -/
inductive Message where
  | invalid
  /-- In place of a frame whose checksum was wrong or whose data had no meaning. -/
  | defective
  | ack
  | nack
  | sync (parameters : SyncParameters)
  | threadPrintItem (print : ThreadPrint)
  | threadPrintExpr (print : ThreadPrint)
  | threadList (list : ThreadList)
  | memList (list : MemoryList)
  | memAddBlock (block : Block)
  | autorunList (list : AutorunList)
  | threadStart (start : ThreadStart)
  deriving DecidableEq

namespace Message

def kind : Message → Kind
  | .invalid => .invalid
  | .defective => .defective
  | .ack => .ack
  | .nack => .nack
  | .sync _ => .sync
  | .threadPrintItem _ => .threadPrintItem
  | .threadPrintExpr _ => .threadPrintExpr
  | .threadList _ => .threadList
  | .memList _ => .memList
  | .memAddBlock _ => .memAddBlock
  | .autorunList _ => .autorunList
  | .threadStart _ => .threadStart

def text (message : Message) : String :=
  message.kind.messageText

/-- The message of a kind with given data. -/
def ofKind (kind : Kind) (data : Bytes) : Except MessageError Message :=
  match kind with
  | .invalid => .ok .invalid
  | .defective => .ok .defective
  | .ack => .ok .ack
  | .nack => .ok .nack
  | .sync => (SyncParameters.ofBytes data).map .sync
  | .threadPrintItem => .ok (.threadPrintItem ⟨data⟩)
  | .threadPrintExpr => .ok (.threadPrintExpr ⟨data⟩)
  | .threadList => .ok (.threadList ⟨data⟩)
  | .memList => .ok (.memList ⟨data⟩)
  | .memAddBlock => .ok (.memAddBlock ⟨data⟩)
  | .autorunList => .ok (.autorunList ⟨data⟩)
  | .threadStart => .ok (.threadStart ⟨data⟩)

/-- The message that arrives with a type byte and data. -/
def ofWire (id : UInt8) (data : Bytes) : Except MessageError Message :=
  match Kind.ofWire? id with
  | some kind => ofKind kind data
  | none => .error (.unknownType id)

def toBytes : Message → Except MessageError Bytes
  | .invalid => .error (.notEncodable .invalid)
  | .defective => .error (.notEncodable .defective)
  | .ack => .ok []
  | .nack => .ok []
  | .sync p => .ok p.toBytes
  | .threadPrintItem print => .ok print.data
  | .threadPrintExpr print => .ok print.data
  | .threadList list => .ok list.data
  | .memList list => .ok list.data
  | .memAddBlock block => .ok block.data
  | .autorunList list => .ok list.data
  | .threadStart start => .ok start.moduleBytes

def wireId (message : Message) : Except MessageError UInt8 :=
  match message.kind.wireId? with
  | some id => .ok id
  | none => .error (.notEncodable message.kind)

/-- The message of a kind with given data, the defective one if the data has no meaning. -/
def ofKindOrDefective (kind : Kind) (data : Bytes) : Message :=
  match ofKind kind data with
  | .ok message => message
  | .error _ => .defective

end Message

end RemotePyMite
