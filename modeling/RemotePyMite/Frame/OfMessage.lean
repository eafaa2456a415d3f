import RemotePyMite.Frame.Basic
import RemotePyMite.Message.Basic

/-! # The frame of a message -/
namespace RemotePyMite

/-- The frame of a message under a sequence number.  A kind that does not travel has
none, and neither has a message with more data than a frame can hold. -/
def Message.frame (message : Message) (sequence : UInt8) : Except FrameError Frame :=
  match message.wireId, message.toBytes with
  | .error e, _ => .error (.message e)
  | _, .error e => .error (.message e)
  | .ok kind, .ok data =>
    if data.length ≤ Frame.maxData then .ok ⟨sequence, kind, data⟩
    else .error (.dataTooLong data.length Frame.maxData)

end RemotePyMite
