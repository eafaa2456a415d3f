import RemotePyMite.Frame.Decoder
import RemotePyMite.Frame.OfMessage
import RemotePyMite.Link.Target
import RemotePyMite.Session.Error

/-! # Channels

A channel numbers and sends the messages of the host and hands every message of the
target to a receiver, which may answer each with at most one message of its own.  The host
may change the state of the receiver too, in the ways `ν` lists.  A channel is open from its
opening to its closing and is not opened again; once the link has failed it stays failed.
`settle` lets target and host talk until nothing is on its way any more; this ends because
the target answers only so often.

All that happens to the receiver is in the log, so its state at any moment follows from
the log up to then.
-/
namespace RemotePyMite

inductive ChannelPhase where
  | fresh
  | running
  /-- The channel is open, but nothing reads from its link. -/
  | unread
  | ended
  deriving DecidableEq, Repr

def ChannelPhase.isOpen : ChannelPhase → Bool
  | .running | .unread => true
  | .fresh | .ended => false

/-- What happens on a channel. -/
inductive Event (ν : Type) where
  | sent (frame : Frame)
  /-- The writing of a frame broke off; a part of it may have reached the target. -/
  | unsent (frame : Frame)
  /-- A message was handed to the receiver. -/
  | received (message : Message)
  | broke (reason : String)
  /-- The host changed the state of the receiver. -/
  | changed (change : ν)
  deriving DecidableEq

/-- What a receiver makes of a message: its next state, a new length for full segments,
and an answer. -/
structure Reception (σ : Type) where
  state : σ
  segmentSize : Option Nat
  reply : Option Message

/-- One that receives messages, with a state of type `σ` that the host changes in the ways
`ν` lists. -/
structure Receiver (σ ν : Type) where
  receive : σ → Message → Reception σ
  /-- What it makes of a failure of the link. -/
  broken : σ → String → σ
  change : σ → ν → σ

/-- A channel with the state of its receiver. -/
structure Channel (σ ν : Type) where
  phase : ChannelPhase
  failure : Option String
  /-- The data that fills a frame of the target. -/
  segmentSize : Nat
  /-- The number of the last frame that was sent. -/
  lastSequence : UInt8
  decoder : Decoder
  link : Link
  receiver : σ
  /-- What happened, the latest first. -/
  log : List (Event ν)

namespace Channel

variable {σ ν : Type}

/-- The most bytes that are read at once. -/
def readSize : Nat := 256

/-- The reason of a failure when the target has closed its side. -/
def closedReason : String := "link unexpectedly closed"

def ofLink (link : Link) (receiver : σ) : Channel σ ν where
  phase := .fresh
  failure := none
  segmentSize := Frame.defaultIncomingSegmentSize
  lastSequence := 0
  decoder := .empty
  link
  receiver
  log := []

def isConnected (c : Channel σ ν) : Bool :=
  c.phase.isOpen && c.failure.isNone

/-- Whether what arrives is taken in. -/
def isReading (c : Channel σ ν) : Bool :=
  c.phase = .running && c.failure.isNone

/-- Opens a channel: its link is opened, and then something is started that reads from it.  If
that cannot be started the channel is left open without.  An open channel stays as it is, and
one whose link could not be opened is over. -/
def connectOver (c : Channel σ ν) (opened : Except LinkError Link) (started : Except IoError Unit) :
    Except SessionError Unit × Channel σ ν :=
  match c.phase, opened, started with
  | .fresh, .ok link, .ok () => (.ok (), { c with phase := .running, link })
  | .fresh, .ok link, .error e => (.error (.link (.io e)), { c with phase := .unread, link })
  | .fresh, .error e, _ => (.error (.link e), { c with phase := .ended })
  | .running, _, _ => (.ok (), c)
  | .unread, _, _ | .ended, _, _ => (.error .notConnected, c)

/-- Opens a channel over its link, which is open already. -/
def connect (c : Channel σ ν) : Except SessionError Unit × Channel σ ν :=
  c.connectOver (.ok c.link) (.ok ())

/-- Closes the channel for good. -/
def quit (c : Channel σ ν) : Channel σ ν :=
  { c with phase := .ended }

/-- What the channel sends its frames with. -/
def writer (c : Channel σ ν) : FrameWriter :=
  ⟨c.link.output, c.lastSequence⟩

/-- Sends a message as a frame.  The target gets a frame that was written whole. -/
def transmit (c : Channel σ ν) (message : Message) : Except SessionError UInt8 × Channel σ ν :=
  match c.failure with
  | some reason => (.error (.channelBroken reason), c)
  | none =>
    if c.phase.isOpen then
      match message.frame (c.lastSequence + 1) with
      | .error e => (.error (.frame e), c)
      | .ok frame =>
        match c.writer.send message with
        | (.error e, writer) =>
          (.error (.frame e),
            { c with
              link := { c.link with output := writer.stream }
              log := .unsent frame :: c.log })
        | (.ok sequence, writer) =>
          (.ok sequence,
            { c with
              lastSequence := writer.lastSequence
              link := { c.link with output := writer.stream }.deliver frame
              log := .sent frame :: c.log })
    else (.error .notConnected, c)

/-- Hands a message to the receiver and sends its answer.  An answer that cannot be sent
is dropped. -/
def dispatch (r : Receiver σ ν) (c : Channel σ ν) (message : Message) : Channel σ ν :=
  let reception := r.receive c.receiver message
  let c := { c with
    receiver := reception.state
    segmentSize := reception.segmentSize.getD c.segmentSize
    log := .received message :: c.log }
  match reception.reply with
  | none => c
  | some reply => (c.transmit reply).2

@[simp] theorem decoder_transmit (c : Channel σ ν) (message : Message) :
    (c.transmit message).2.decoder = c.decoder := by
  unfold transmit
  split
  · rfl
  · split
    · split
      · rfl
      · split <;> rfl
    · rfl

@[simp] theorem decoder_dispatch (r : Receiver σ ν) (c : Channel σ ν) (message : Message) :
    (c.dispatch r message).decoder = c.decoder := by
  unfold dispatch
  dsimp only
  split <;> simp

/-- Hands every whole message in the decoder to the receiver. -/
def drain (r : Receiver σ ν) (c : Channel σ ν) : Channel σ ν :=
  match _h : c.decoder.next c.segmentSize with
  | (none, decoder) => { c with decoder }
  | (some message, decoder) => drain r ({ c with decoder }.dispatch r message)
termination_by c.decoder.buffer.length
decreasing_by
  have := Decoder.length_of_next _h
  simp only [decoder_dispatch]
  omega

/-- Takes in bytes that were read at once. -/
def read (r : Receiver σ ν) (c : Channel σ ν) (bytes : Bytes) : Channel σ ν :=
  drain r { c with decoder := c.decoder.push bytes }

def fail (r : Receiver σ ν) (c : Channel σ ν) (reason : String) : Channel σ ν :=
  { c with
    failure := some reason
    receiver := r.broken c.receiver reason
    log := .broke reason :: c.log }

def change (r : Receiver σ ν) (c : Channel σ ν) (change : ν) : Channel σ ν :=
  { c with receiver := r.change c.receiver change, log := .changed change :: c.log }

/-- Errors after which a read is made again; a serial port gives them while nothing
arrives. -/
def isIdle (kind : IoErrorKind) : Bool :=
  kind = .interrupted || kind = .timedOut || kind = .wouldBlock

/-- The reason of a failure when bytes could not be read. -/
def unreadableReason (error : IoError) : String :=
  s!"read failed: {error.message}"

/-- Takes in what arrives, if the channel reads at all. -/
def take (r : Receiver σ ν) (c : Channel σ ν) (arrival : Arrival) : Channel σ ν :=
  if c.isReading then
    match arrival with
    | .chunk bytes => (bytes.pieces readSize).foldl (read r) c
    | .closed => c.fail r closedReason
    | .failing error => if isIdle error.kind then c else c.fail r (unreadableReason error)
  else c

theorem follows_transmit (c : Channel σ ν) (message : Message) :
    c.link.Follows (c.transmit message).2.link := by
  unfold transmit
  split
  · exact .refl _
  · split
    · split
      · exact .refl _
      · split
        · exact .refl _
        · exact Link.follows_deliver { c.link with output := _ } _
    · exact .refl _

theorem follows_dispatch (r : Receiver σ ν) (c : Channel σ ν) (message : Message) :
    c.link.Follows (c.dispatch r message).link := by
  unfold dispatch
  dsimp only
  split
  · exact .refl _
  · exact follows_transmit _ _

theorem follows_drain (r : Receiver σ ν) (c : Channel σ ν) : c.link.Follows (c.drain r).link := by
  fun_induction drain r c with
  | case1 c decoder _ => exact .refl _
  | case2 c message decoder _ ih => exact (follows_dispatch r { c with decoder } message).trans ih

theorem follows_reads (r : Receiver σ ν) (pieces : List Bytes) (c : Channel σ ν) :
    c.link.Follows (pieces.foldl (read r) c).link := by
  induction pieces generalizing c with
  | nil => exact .refl _
  | cons piece rest ih =>
    exact (follows_drain r { c with decoder := c.decoder.push piece }).trans (ih _)

theorem follows_take (r : Receiver σ ν) (c : Channel σ ν) (arrival : Arrival) :
    c.link.Follows (c.take r arrival).link := by
  unfold take
  split
  · split
    · exact follows_reads r _ c
    · exact .refl _
    · split <;> exact .refl _
  · exact .refl _

/-- Takes in all that is on its way, first to last; what the target says to it comes behind
all of it. -/
def takeAll (r : Receiver σ ν) (c : Channel σ ν) : Channel σ ν :=
  c.link.inbox.foldl (take r) { c with link := { c.link with inbox := [] } }

theorem follows_takes (r : Receiver σ ν) (arrivals : List Arrival) (c : Channel σ ν) :
    c.link.Follows (arrivals.foldl (take r) c).link := by
  induction arrivals generalizing c with
  | nil => exact .refl _
  | cons arrival rest ih => exact (follows_take r c arrival).trans (ih _)

/-- Lets host and target talk until nothing is on its way. -/
def settle (r : Receiver σ ν) (c : Channel σ ν) : Channel σ ν :=
  if c.link.inbox.isEmpty then c else settle r (c.takeAll r)
termination_by 2 * c.link.answersLeft + if c.link.inbox.isEmpty then 0 else 1
decreasing_by
  next h =>
  have hf := follows_takes r c.link.inbox { c with link := { c.link with inbox := [] } }
  unfold Link.Follows at hf
  unfold takeAll
  grind

def exchange (r : Receiver σ ν) (c : Channel σ ν) (message : Message) :
    Except SessionError UInt8 × Channel σ ν :=
  let (result, c) := c.transmit message
  (result, c.settle r)

/-- What has come meanwhile is taken in behind all that is on its way, and host and target
talk. -/
def accept (r : Receiver σ ν) (c : Channel σ ν) (arrivals : List Arrival) : Channel σ ν :=
  { c with link := { c.link with inbox := c.link.inbox ++ arrivals } }.settle r

/-- The target writes chunks of its own accord, and host and target talk. -/
def inject (r : Receiver σ ν) (c : Channel σ ν) (chunks : List Bytes) : Channel σ ν :=
  { c with link := c.link.put ⟨chunks, false⟩ }.settle r

def closeTarget (r : Receiver σ ν) (c : Channel σ ν) : Channel σ ν :=
  if c.isConnected then { c with link := c.link.put ⟨[], true⟩ }.settle r else c

def sent (log : List (Event ν)) : List Frame :=
  log.filterMap fun
    | .sent frame => some frame
    | _ => none

end Channel

end RemotePyMite
