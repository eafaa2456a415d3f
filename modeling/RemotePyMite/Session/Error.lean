import RemotePyMite.Frame.Basic
import RemotePyMite.Link.Error
import RemotePyMite.Value.Error

/-! # What can go wrong with a session -/
namespace RemotePyMite

/-- The calls that give up after some attempts. -/
inductive Operation where
  | synchronize
  | send
  | readThreadList
  | readMemoryMap
  | readAutorunList
  deriving DecidableEq, Repr

def Operation.name : Operation → String
  | .synchronize => "synchronize"
  | .send => "send"
  | .readThreadList => "read thread list"
  | .readMemoryMap => "read memory space list"
  | .readAutorunList => "read autorun list"

/-- Why a call failed. -/
inductive SessionError where
  | link (error : LinkError)
  | frame (error : FrameError)
  | message (error : MessageError)
  | value (error : ValueError)
  /-- The target did not answer; `lastMessage` is the text of what it did not answer. -/
  | timeout (operation : Operation) (attempts : Nat) (lastMessage : Option String)
  | channelBroken (reason : String)
  /-- The channel was never opened, or is closed. -/
  | notConnected
  | image (reason : String)
  deriving DecidableEq, Repr

def SessionError.text : SessionError → String
  | .link error => s!"transport error: {error.message}"
  | .frame error => s!"frame error: {error.text}"
  | .message error => s!"message error: {error.message}"
  | .value error => s!"marshal error: {error.message}"
  | .timeout operation attempts none => s!"{operation.name} timed out after {attempts} attempts"
  | .timeout operation attempts (some lastMessage) =>
    s!"{operation.name} timed out after {attempts} attempts (last message {lastMessage})"
  | .channelBroken reason => s!"channel broken: {reason}"
  | .notConnected => "channel not connected"
  | .image reason => s!"module image error: {reason}"

end RemotePyMite
