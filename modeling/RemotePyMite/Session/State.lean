import RemotePyMite.Message.Basic

/-! # What a session knows of its target -/
namespace RemotePyMite

/-- How far the handshake has come. -/
inductive SyncProgress where
  | unsynchronized
  | synchronizing
  /-- The target has told its parameters and acknowledged those of the host. -/
  | synchronized
  deriving DecidableEq, Repr

def SyncProgress.name : SyncProgress → String
  | .unsynchronized => "unsynchronized"
  | .synchronizing => "synchronizing"
  | .synchronized => "synchronized"

/-- A line that a thread of the target printed. -/
structure OutputLine where
  thread : UInt64
  text : String
  deriving DecidableEq, Repr

/-- The ways in which a session itself changes what it knows of its target. -/
inductive SessionChange where
  /-- Neither half of the handshake counts as done any more. -/
  | beginHandshake
  | record (message : Message)
  /-- The outstanding message no longer waits, if it is of this kind. -/
  | giveUp (kind : Kind)
  | forgetThreads
  | forgetMemory
  | forgetAutorun
  | takeLine
  | takeLines
  deriving DecidableEq

/-- What a session knows of its target. -/
structure SessionState where
  parameters : Option SyncParameters
  /-- The target has told its parameters since the handshake began. -/
  syncedIncoming : Bool
  /-- The target has acknowledged the host's parameters since the handshake began. -/
  syncedOutgoing : Bool
  /-- The message that waits for an acknowledgment. -/
  outstanding : Option Message
  threads : Option (List UInt64)
  memory : Option MemoryMap
  autorun : Option (List String)
  /-- Printed text behind the last line feed, its last byte first. -/
  printBuffer : Bytes
  /-- Printed lines that were not asked for yet, the earliest first. -/
  output : List OutputLine

namespace SessionState

/-- The bytes of a machine word of a target that has not told. -/
def defaultWordSize : Nat := 4

/-- A session knows nothing at first. -/
def initial : SessionState where
  parameters := none
  syncedIncoming := false
  syncedOutgoing := false
  outstanding := none
  threads := none
  memory := none
  autorun := none
  printBuffer := []
  output := []

def wordSize (s : SessionState) : Nat :=
  match s.parameters with
  | some p => if p.wordSize = 0 then defaultWordSize else p.wordSize.toNat
  | none => defaultWordSize

def outstandingKind (s : SessionState) : Option Kind :=
  s.outstanding.map Message.kind

def outstandingText (s : SessionState) : Option String :=
  s.outstanding.map Message.text

def isSynchronized (s : SessionState) : Bool :=
  s.syncedIncoming && s.syncedOutgoing

def progress (s : SessionState) : SyncProgress :=
  if s.isSynchronized then .synchronized
  else if s.syncedIncoming || s.syncedOutgoing || s.outstandingKind = some .sync then
    .synchronizing
  else .unsynchronized

/-- The state without its outstanding message, if that is of the given kind. -/
def dropOutstanding (s : SessionState) (kind : Kind) : SessionState :=
  if s.outstandingKind = some kind then { s with outstanding := none } else s

def change (s : SessionState) : SessionChange → SessionState
  | .beginHandshake => { s with syncedIncoming := false, syncedOutgoing := false }
  | .record message => { s with outstanding := some message }
  | .giveUp kind => s.dropOutstanding kind
  | .forgetThreads => { s with threads := none }
  | .forgetMemory => { s with memory := none }
  | .forgetAutorun => { s with autorun := none }
  | .takeLine => { s with output := s.output.tail }
  | .takeLines => { s with output := [] }

end SessionState

end RemotePyMite
