import RemotePyMite.Session.Incoming

/-! # Sessions

A session makes the calls of the host on one target.  At most one message waits for an
acknowledgment; every call sends its message at most as often as the session allows.

A call is an action on the session: it ends with a result or an error, and the session
goes on from where it then is.  While it runs, what the target sends is taken in by somebody
else: the answers to a message right after it was sent, and between any two steps of the call
whatever comes of its own accord or late (`Action.hear`).  A step that looks at the state, or
changes it, is not interrupted.  Time is not counted: a wait is over when target and host have
nothing more to say, and then either what was waited for has come or the attempt has failed.
-/
namespace RemotePyMite

/-- A session over a channel. -/
structure Session where
  channel : Channel SessionState SessionChange
  /-- How often a call sends its message before it gives up. -/
  retries : Nat
  /-- What will come between the steps of the calls, one entry for each place between two
  steps.  Where there are no more entries nothing comes. -/
  meanwhile : List (List Arrival)

/-- A call on a session. -/
abbrev Action := ExceptT SessionError (StateM Session)

namespace Session

def state (s : Session) : SessionState :=
  s.channel.receiver

/-- A new session; between the steps of its calls nothing comes. -/
def ofLink (link : Link) (retries : Nat) : Session :=
  ⟨((Channel.ofLink link SessionState.initial).connect).2, retries, []⟩

/-- The session after the next place between two steps. -/
def hear (s : Session) : Session :=
  match s.meanwhile with
  | [] => s
  | arrivals :: meanwhile =>
    { s with channel := s.channel.accept SessionState.receiver arrivals, meanwhile }

/-- The data that a frame for the target can hold. -/
def outgoingSegmentSize (s : Session) : Nat :=
  match s.state.parameters with
  | some p => (Frame.segmentSizeFor p.receiveBufferSize).getD Frame.defaultSegmentSize
  | none => Frame.defaultSegmentSize

end Session

namespace Action

def run {α : Type} (action : Action α) (s : Session) : Except SessionError α × Session :=
  ExceptT.run action s

def state : Action SessionState :=
  return (← get).state

def update (change : SessionChange) : Action Unit :=
  modify fun s => { s with channel := s.channel.change SessionState.receiver change }

/-- Takes in what comes between two steps of a call. -/
def hear : Action Unit :=
  modify Session.hear

/-- Sends a message as it is and lets host and target talk. -/
def transmit (message : Message) : Action UInt8 := do
  let s ← get
  let (result, channel) := s.channel.exchange SessionState.receiver message
  set { s with channel }
  match result with
  | .ok sequence => return sequence
  | .error e => throw e

/-- What `find` finds in the state at the end of a wait.  A failure of the link ends the call
if there is nothing. -/
def await {α : Type} (find : SessionState → Option α) : Action (Option α) := do
  let s ← get
  match find s.state, s.channel.failure with
  | some found, _ => return some found
  | none, some reason => throw (.channelBroken reason)
  | none, none => return none

/-- Whether `done` holds at the end of a wait. -/
def awaitState (done : SessionState → Bool) : Action Bool :=
  return (← await fun s => if done s then some () else none).isSome

end Action

end RemotePyMite
