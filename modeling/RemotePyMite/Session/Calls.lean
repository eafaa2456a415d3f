import RemotePyMite.Session.Basic
import RemotePyMite.Value.Decode

/-! # The calls of a session

Every call that sends makes sure first that the handshake is done and that nothing is
outstanding.  A call on an outstanding message waits once before it sends the message
again.  A read forgets what an earlier read found before it asks.

In each of its steps a call looks at the state of the session and may change it at once, or it
sends a message.  `Action.hear` stands between any two steps, and nowhere else.
-/
namespace RemotePyMite

/-- Makes the image of a module from its name and source. -/
abbrev ImageBuilder := String → Bytes → Except SessionError Bytes

/-- The builder for sources that are images already: they must hold one code object and
stay as they are. -/
def ImageBuilder.precompiled : ImageBuilder := fun _ source =>
  match CodeObject.ofImage source with
  | .ok _ => .ok source
  | .error e => .error (.value e)

/-- A question to the target: what is sent, and where its answer is kept. -/
structure Query (α : Type) where
  operation : Operation
  request : Message
  answer : SessionState → Option α
  forget : SessionChange

namespace Query

def threads : Query (List UInt64) where
  operation := .readThreadList
  request := .threadList .request
  answer := SessionState.threads
  forget := .forgetThreads

def memory : Query MemoryMap where
  operation := .readMemoryMap
  request := .memList .request
  answer := SessionState.memory
  forget := .forgetMemory

def autorun : Query (List String) where
  operation := .readAutorunList
  request := .autorunList .request
  answer := SessionState.autorun
  forget := .forgetAutorun

end Query

namespace Session

/-- Waits for the acknowledgment of the outstanding message, in so many attempts; where
`resends` holds, an attempt sends the message again. -/
def attemptOutstanding (resends : Bool) : Nat → Action Unit
  | 0 => do
    match (← Action.state).outstandingText with
    | none => return
    | some text => throw (.timeout .send (← get).retries (some text))
  | attempts + 1 => do
    match (← Action.state).outstanding with
    | none => return
    | some message =>
      Action.hear
      if resends then
        discard <| Action.transmit message
        Action.hear
      if ← Action.awaitState (·.outstanding.isNone) then return
      Action.hear
      attemptOutstanding true attempts

def waitOutstanding : Action Unit := do
  attemptOutstanding false (← get).retries

/-- Tries the handshake so many times; the first try of a call says that the host knows
nothing of the link. -/
def attemptSync (reset : Bool) : Nat → Action Unit
  | 0 => do
    throw (.timeout .synchronize (← get).retries (← Action.state).outstandingText)
  | attempts + 1 => do
    Action.update (.giveUp .sync)
    Action.hear
    waitOutstanding
    Action.hear
    let sync := Message.sync (.host reset)
    Action.update (.record sync)
    Action.hear
    discard <| Action.transmit sync
    Action.hear
    if ← Action.awaitState (·.isSynchronized) then return
    Action.hear
    attemptSync false attempts

def synchronize : Action Unit := do
  Action.update .beginHandshake
  Action.hear
  attemptSync true (← get).retries

/-- Whether a message of this kind can be sent before the handshake. -/
def needsNoSync (kind : Kind) : Bool :=
  kind = .ack || kind = .sync

/-- Whether a message of this kind waits for an acknowledgment. -/
def isTracked (kind : Kind) : Bool :=
  kind ≠ .ack && kind ≠ .nack && kind ≠ .threadList

/-- Does the handshake if a message of this kind needs it and it is not done. -/
def ensureSync (kind : Kind) : Action Unit := do
  if needsNoSync kind then return
  if !(← Action.state).syncedOutgoing then
    Action.hear
    synchronize
  Action.hear

/-- Sends a message, which becomes the outstanding one if it waits for an acknowledgment. -/
def post (message : Message) : Action Unit := do
  if isTracked message.kind then
    Action.update (.record message)
    Action.hear
  discard <| Action.transmit message

/-- Sends a message once nothing is outstanding. -/
def send (message : Message) : Action Unit := do
  ensureSync message.kind
  waitOutstanding
  Action.hear
  post message

/-- Asks a question so many times; a question that is asked again is no longer
outstanding from before. -/
def ask {α : Type} (query : Query α) (again : Bool) : Nat → Action α
  | 0 => do
    throw (.timeout query.operation (← get).retries (some query.request.text))
  | attempts + 1 => do
    Action.hear
    if again then
      Action.update (.giveUp query.request.kind)
      Action.hear
    send query.request
    Action.hear
    match ← Action.await query.answer with
    | some found =>
      Action.update query.forget
      return found
    | none => ask query true attempts

/-- Asks a question and waits for the answer. -/
def read {α : Type} (query : Query α) : Action α := do
  Action.update query.forget
  ask query false (← get).retries

def readThreadList : Action (List UInt64) := read .threads

def readMemoryMap : Action MemoryMap := read .memory

def readAutorunList : Action (List String) := read .autorun

def sendAutorunList (names : List String) : Action Unit :=
  send (.autorunList (.ofNames names))

def startThread (name : String) : Action Unit :=
  send (.threadStart (.ofName name))

def sendSegments : List Block → Action Unit
  | [] => return
  | segment :: rest => do
    Action.hear
    send (.memAddBlock segment)
    sendSegments rest

/-- Appends data to a memory space, segment by segment, each acknowledged before the
next. -/
def addBlock (space : UInt8) (data : Bytes) : Action Unit := do
  match Block.segments space data (← get).outgoingSegmentSize with
  | .error e => throw (.message e)
  | .ok segments =>
    sendSegments segments
    Action.hear
    waitOutstanding

/-- Makes the image of a module and loads it into the memory space for modules. -/
def addModule (name : String) (source : Bytes) (build : ImageBuilder) : Action Unit := do
  match build name source with
  | .error e => throw e
  | .ok image => addBlock moduleSpace image

/-- The printed lines that were not asked for yet. -/
def drainOutput : Action (List OutputLine) := do
  let lines := (← Action.state).output
  Action.update .takeLines
  return lines

/-- The next printed line, if there is one.  What comes in while it waits has come before it looks. -/
def nextOutput : Action (Option OutputLine) := do
  match ← Action.await (·.output.head?) with
  | some line =>
    Action.update .takeLine
    return some line
  | none => return none

def terminate : Action Unit :=
  modify fun s => { s with channel := s.channel.quit }

end Session

end RemotePyMite
