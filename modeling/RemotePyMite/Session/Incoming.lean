import RemotePyMite.Channel.Basic
import RemotePyMite.Session.State

/-! # How a session takes in messages

Each message of the target changes what the session knows and is answered by at most one
message: an acknowledgment, or the outstanding message once more.  Nothing that comes in
ever makes a message outstanding.
-/
namespace RemotePyMite.SessionState

/-- The lines of a text that end in a line feed, and what is behind the last of these. -/
def splitLines : Bytes → List Bytes × Bytes
  | [] => ([], [])
  | b :: rest =>
    let (lines, last) := splitLines rest
    if b = 0x0A then ([] :: lines, last)
    else
      match lines with
      | [] => ([], b :: last)
      | line :: more => ((b :: line) :: more, last)

/-- Text in front of a text belongs to its first line. -/
theorem splitLines_append {front : Bytes} (h : 0x0A ∉ front) (text : Bytes) :
    splitLines (front ++ text) =
      match splitLines text with
      | ([], last) => ([], front ++ last)
      | (line :: more, last) => ((front ++ line) :: more, last) := by
  induction front with
  | nil => simp only [List.nil_append]; split <;> simp_all
  | cons b rest ih =>
    rw [List.mem_cons, not_or] at h
    rw [List.cons_append, splitLines, ih h.2]
    rcases splitLines text with ⟨_ | ⟨line, more⟩, last⟩ <;> simp [Ne.symm h.1]

/-- The target has told its parameters.  Full segments carry the whole of its receive
buffer; one of size zero changes nothing. -/
def onSync (s : SessionState) (p : SyncParameters) : Reception SessionState where
  state := { s with parameters := some p, syncedIncoming := true }
  segmentSize := if p.receiveBufferSize = 0 then none else some p.receiveBufferSize.toNat
  reply := if p.reset then some .ack else none

def onAck (s : SessionState) : Reception SessionState where
  state := { s with
    outstanding := none
    syncedOutgoing := s.syncedOutgoing || s.outstandingKind = some .sync }
  segmentSize := none
  reply := none

/-- The outstanding message did not arrive well and is sent once more. -/
def onNack (s : SessionState) : Reception SessionState :=
  ⟨s, none, s.outstanding⟩

/-- A thread has printed text.  What was printed before and has no line feed yet belongs to
the first line of it. -/
def onPrint (s : SessionState) (print : ThreadPrint) : Reception SessionState :=
  match splitLines (print.text s.wordSize) with
  | ([], last) => ⟨{ s with printBuffer := last.reverse ++ s.printBuffer }, none, none⟩
  | (line :: more, last) =>
    let thread := print.address s.wordSize
    let lines := (s.printBuffer.reverse ++ line) :: more
    let output := s.output ++ lines.map fun line => ⟨thread, Utf8.decode line⟩
    ⟨{ s with printBuffer := last.reverse, output }, none, none⟩

/-- The target has told its threads, perhaps unasked. -/
def onThreadList (s : SessionState) (list : ThreadList) : Reception SessionState where
  state :=
    match list.addresses s.wordSize with
    | .ok threads => { s with threads := some threads }.dropOutstanding .threadList
    | .error _ => s
  segmentSize := none
  reply := some .ack

def onMemoryList (s : SessionState) (list : MemoryList) : Reception SessionState where
  state :=
    match list.spaces with
    | .ok memory => { s with memory := some memory, outstanding := none }
    | .error _ => s
  segmentSize := none
  reply := some .ack

def onAutorunList (s : SessionState) (list : AutorunList) : Reception SessionState :=
  ⟨{ s with autorun := some list.names, outstanding := none }, none, none⟩

def receive (s : SessionState) : Message → Reception SessionState
  | .sync p => s.onSync p
  | .ack => s.onAck
  | .nack => s.onNack
  | .threadPrintItem print => s.onPrint print
  | .threadPrintExpr print => s.onPrint print
  | .threadList list => s.onThreadList list
  | .memList list => s.onMemoryList list
  | .autorunList list => s.onAutorunList list
  | .defective | .invalid | .memAddBlock _ | .threadStart _ => ⟨s, none, none⟩

def receiver : Receiver SessionState SessionChange where
  receive := receive
  broken s _ := s
  change := change

end RemotePyMite.SessionState
