import RemotePyMite.Proofs.Channel.Invariant
import RemotePyMite.Proofs.Frame.Segments
import RemotePyMite.Proofs.Session.History

/-! # Answers, and what the host sends of its own accord

A message of the target is answered before anything else happens.  So whether a frame in the log of a
session is an answer can be seen from the event before it: it is one exactly if that event is a message
with an answer that a frame can hold (`answerDue`).
-/
namespace RemotePyMite

/-- The message that a frame carries. -/
def Frame.message? (f : Frame) : Option Message :=
  (Message.ofWire f.kind f.data).toOption

/-- The frame that an event tries to send. -/
def Event.frame? {ν : Type} : Event ν → Option Frame
  | .sent frame => some frame
  | .unsent frame => some frame
  | _ => none

theorem Event.Tries.frame?_eq {ν : Type} {frame : Frame} {event : Event ν} (h : event.Tries frame) :
    event.frame? = some frame := by
  cases h <;> rfl

namespace Message

theorem message?_of_frame {m : Message} {n : UInt8} {frame : Frame} (h : m.frame n = .ok frame) :
    frame.message? = some m := by
  obtain ⟨hid,hdata⟩ := wire_of_frame h
  have travels : m.kind ≠ .invalid ∧ m.kind ≠ .defective := by
    constructor <;> intro hk <;> rw [wireId,hk] at hid <;> cases hid
  obtain ⟨id,data,hid',hdata',hkind,hm⟩ := m.exists_wire travels
  cases hid.symm.trans hid'
  cases hdata.symm.trans hdata'
  rw [Frame.message?,ofWire,hkind]
  dsimp only
  rw [hm]
  rfl

/-- Two messages with the same frame are the same. -/
theorem eq_of_frame {m other : Message} {n k : UInt8} {frame : Frame} (h : m.frame n = .ok frame)
    (h' : other.frame k = .ok frame) : m = other :=
  Option.some.inj ((message?_of_frame h).symm.trans (message?_of_frame h'))

/-- A frame can hold the message. -/
def isFramable (m : Message) : Bool :=
  (m.frame 0).toBool

theorem isFramable_of_frame {m : Message} {n : UInt8} {frame : Frame} (h : m.frame n = .ok frame) :
    m.isFramable = true := by
  unfold isFramable
  cases hz : m.frame 0 with
  | ok other => rfl
  | error e => exact absurd h (unsendable_of_error hz n frame)

theorem Unsendable.isFramable {m : Message} (h : m.Unsendable) : m.isFramable = false := by
  unfold Message.isFramable
  cases hz : m.frame 0 with
  | ok other => exact absurd hz (h 0 other)
  | error e => rfl

end Message

namespace SessionState

/-- The last event is a message of the target that still has to be answered. -/
def answerDue (start : SessionState) : History → Bool
  | .received m :: earlier => ((replay start earlier).receive m).reply.any Message.isFramable
  | _ => false

/-- On a connected channel nothing is left unanswered. -/
def Prompt (start : SessionState) (connected : Bool) (log : History) (state : SessionState) : Prop :=
  state = replay start log ∧ (connected = true → answerDue start log = false)

theorem Prompt.change {start state : SessionState} {connected : Bool} {log : History}
    (h : Prompt start connected log state) (change : SessionChange) :
    Prompt start connected (.changed change :: log) (state.change change) :=
  ⟨congrArg (·.change change) h.1,fun _ => rfl⟩

theorem Prompt.frame {start state : SessionState} {connected : Bool} {log : History} {frame : Frame}
    {event : Event SessionChange} (h : Prompt start connected log state) (ht : event.Tries frame) :
    Prompt start connected (event :: log) state := by
  cases ht <;> exact ⟨h.1,fun _ => rfl⟩

theorem keeps_replay (start : SessionState) : receiver.Keeps fun log state => state = replay start log where
  received := fun m h => congrArg (fun s => (receive s m).state) h
  replied := fun m _ _ _ _ h _ _ ht => by
    cases ht <;> exact congrArg (fun s => (receive s m).state) h
  broke := fun _ h => h

theorem upholds_prompt (start : SessionState) : receiver.Upholds (Prompt start) where
  received := by
    rintro connected log state m ⟨rfl,-⟩ hu
    refine ⟨rfl,fun hc => ?_⟩
    rw [answerDue]
    cases hr : ((replay start log).receive m).reply with
    | none => rfl
    | some reply => exact (hu hc reply hr).isFramable
  replied := by
    rintro log state m reply n frame event ⟨rfl,-⟩ - - ht
    cases ht <;> exact ⟨rfl,fun _ => rfl⟩
  broke := fun _ h => ⟨h.1,fun _ => rfl⟩

/-- A frame can hold the answer that follows a message. -/
theorem answerDue_of_reply {start : SessionState} {log : History} {m reply : Message} {n : UInt8}
    {frame : Frame} (hr : ((replay start log).receive m).reply = some reply)
    (hf : reply.frame n = .ok frame) : answerDue start (.received m :: log) = true := by
  rw [answerDue,hr]
  exact Message.isFramable_of_frame hf

end SessionState

end RemotePyMite
