import RemotePyMite.Proofs.Session.Answer
import RemotePyMite.Session.Calls

/-! # What it costs to go on

A call may send so many frames, and one more each time the target refuses a message; acknowledgments do
not count.  `Affords` says how many frames a session has left of these, and how many for the message
that was recorded last.  Messages of the target, whatever they are, cost nothing.
-/
namespace RemotePyMite

def Frame.isAck (f : Frame) : Bool :=
  Kind.ofWire? f.kind = some .ack

/-- A frame of this message. -/
def Frame.isOf (f : Frame) (m : Message) : Bool :=
  (m.frame f.sequence).toOption = some f

/-- A frame is sent that is no acknowledgment, whole or not. -/
def Event.isSending (event : Event SessionChange) : Bool :=
  event.frame?.any fun frame => !frame.isAck

def Event.isRefusal : Event SessionChange → Bool
  | .received .nack => true
  | _ => false

namespace SessionState

def sendings (log : History) : Nat :=
  log.countP Event.isSending

def refusals (log : History) : Nat :=
  log.countP Event.isRefusal

/-- The message that was recorded last, or else the one that was outstanding at the start. -/
def entry (start : SessionState) : History → Option Message
  | [] => start.outstanding
  | .changed (.record m) :: _ => some m
  | _ :: earlier => entry start earlier

/-- The host sends the message recorded last, and not as an answer to a refusal; the target may have cleared
it before.  A message that is not tracked has no claim to frames like its own once it is cleared. -/
def isTry (start : SessionState) (earlier : History) (event : Event SessionChange) : Bool :=
  !answerDue start earlier && event.frame?.any fun frame => (entry start earlier).any fun m =>
    frame.isOf m && (Session.isTracked m.kind || (replay start earlier).outstanding = some m)

/-- How often the message recorded last was sent since then, or the one outstanding at the start since the
start, apart from the answers to refusals. -/
def tries (start : SessionState) : History → Nat
  | [] => 0
  | .changed (.record _) :: _ => 0
  | event :: earlier => tries start earlier + (isTry start earlier event).toNat

variable {start : SessionState} {log : History} {event : Event SessionChange} {frame : Frame}

theorem sendings_le (event : Event SessionChange) (log : History) :
    sendings (event :: log) ≤ sendings log + 1 := by
  rw [sendings,List.countP_cons]
  split <;> simp [sendings]

theorem sendings_of_isSending (h : event.isSending = false) (log : History) :
    sendings (event :: log) = sendings log :=
  List.countP_cons_of_neg (by simp [h])

theorem refusals_le (event : Event SessionChange) (log : History) :
    refusals log ≤ refusals (event :: log) := by
  rw [refusals,refusals,List.countP_cons]
  exact Nat.le_add_right _ _

theorem refusals_nack (log : History) : refusals (.received .nack :: log) = refusals log + 1 :=
  List.countP_cons_of_pos rfl

theorem tries_frame (ht : event.Tries frame) :
    tries start (event :: log) = tries start log + (isTry start log event).toNat := by
  cases ht <;> rfl

theorem tries_of_isTry (ht : event.Tries frame) (h : isTry start log event = false) :
    tries start (event :: log) = tries start log := by
  rw [tries_frame ht,h]
  rfl

theorem tries_frame_le (ht : event.Tries frame) :
    tries start (event :: log) ≤ tries start log + 1 := by
  rw [tries_frame ht]
  exact Nat.add_le_add_left (Bool.toNat_le _) _

theorem tries_received (start : SessionState) (m : Message) (log : History) :
    tries start (.received m :: log) = tries start log := by
  simp [tries,isTry,Event.frame?]

/-- A message that is not tracked is no try of another. -/
theorem isTry_of_untracked {m : Message} {n : UInt8} (hf : m.frame n = .ok frame) (ht : event.Tries frame)
    (hm : Session.isTracked m.kind = false) (ho : (replay start log).outstanding = none) :
    isTry start log event = false := by
  rw [isTry,ht.frame?_eq,ho]
  cases he : entry start log with
  | none => simp
  | some other =>
    have hother : frame.isOf other = true → Session.isTracked other.kind = false := by
      intro h
      have hframe : other.frame frame.sequence = .ok frame := by
        rw [Frame.isOf,decide_eq_true_iff] at h
        cases hr : other.frame frame.sequence with
        | ok found =>
          rw [hr] at h
          cases h
          rfl
        | error e =>
          rw [hr] at h
          cases h
      rw [Message.eq_of_frame hframe hf]
      exact hm
    cases hof : frame.isOf other with
    | false => simp [hof]
    | true => simp [hother hof]

theorem isAck_of_frame {n : UInt8} (h : Message.frame .ack n = .ok frame) : frame.isAck = true := by
  have hk := Message.kind_of_frame h
  rw [Frame.isAck,hk]
  rfl

/-- The call may send `n` frames more, and `k` times more the message recorded last, so as to keep within
`limit` frames and `r` times; that message even when it is cleared, if the call has `seen` it not to be. -/
structure Affords (start : SessionState) (r limit n k : Nat) (seen : Bool) (log : History)
    (state : SessionState) : Prop where
  state_eq : state = replay start log
  sendings_le : sendings log + n ≤ refusals log + limit
  tries_le : ∀ past, past <:+ log → tries start past ≤ r
  again_le : seen = true ∨ state.outstanding ≠ none → tries start log + k ≤ r

variable {r limit n k n' k' : Nat} {seen : Bool} {state : SessionState}

theorem affords_start (start : SessionState) (r limit : Nat) (h : n ≤ limit) (hk : k ≤ r) :
    Affords start r limit n k false [] start where
  state_eq := rfl
  sendings_le := by simpa [sendings,refusals] using h
  tries_le := by
    intro past hp
    rw [List.suffix_nil.mp hp]
    exact Nat.zero_le r
  again_le := fun _ => by simpa [tries] using hk

theorem Affords.mono (h : Affords start r limit n k seen log state) (hn : n' ≤ n) (hk : k' ≤ k) :
    Affords start r limit n' k' false log state := by
  refine ⟨h.state_eq,?_,h.tries_le,fun ho => ?_⟩
  · have hs := h.sendings_le
    omega
  · have ha := h.again_le (.inr (ho.resolve_left (by simp)))
    omega

/-- What is outstanding can be sent again as often, also when it is cleared before that. -/
theorem Affords.see (h : Affords start r limit n k seen log state) (ho : state.outstanding ≠ none) :
    Affords start r limit n k true log state :=
  ⟨h.state_eq,h.sendings_le,h.tries_le,fun _ => h.again_le (.inr ho)⟩

/-- Where nothing is outstanding, nothing limits what is not yet recorded. -/
theorem Affords.free (h : Affords start r limit n k seen log state) (ho : state.outstanding = none) :
    Affords start r limit n k' false log state :=
  ⟨h.state_eq,h.sendings_le,h.tries_le,fun hne => absurd ho (hne.resolve_left (by simp))⟩

theorem Affords.tries_now (h : Affords start r limit n k seen log state) : tries start log ≤ r :=
  h.tries_le log List.suffix_rfl

/-- An event that is not a frame and records nothing costs nothing. -/
theorem Affords.idle (h : Affords start r limit n k seen log state) {state' : SessionState}
    (hs : state' = replay start (event :: log)) (he : event.isSending = false)
    (ht : tries start (event :: log) = tries start log)
    (ho : state'.outstanding = none ∨ state'.outstanding = state.outstanding) :
    Affords start r limit n k seen (event :: log) state' := by
  refine ⟨hs,?_,?_,fun hne => ?_⟩
  · rw [sendings_of_isSending he]
    exact Nat.le_trans h.sendings_le (Nat.add_le_add_right (refusals_le event log) limit)
  · intro past hp
    rcases List.suffix_cons_iff.mp hp with rfl | hp
    · exact ht ▸ h.tries_now
    · exact h.tries_le past hp
  · rw [ht]
    refine h.again_le (hne.imp_right fun hne hnone => ?_)
    rcases ho with ho | ho
    · exact hne ho
    · exact hne (ho.trans hnone)

/-- A frame costs one sending, and one try where the message recorded last is sent. -/
theorem Affords.sent (h : Affords start r limit (n + 1) k seen log state) (ht : event.Tries frame)
    (hle : tries start (event :: log) ≤ r)
    (hagain : seen = true ∨ state.outstanding ≠ none → tries start (event :: log) + k' ≤ r) :
    Affords start r limit n k' seen (event :: log) state := by
  refine ⟨by cases ht <;> exact h.state_eq,?_,?_,hagain⟩
  · have hsendings := h.sendings_le
    have hcost := SessionState.sendings_le event log
    have hrefusals := refusals_le event log
    omega
  · intro past hp
    rcases List.suffix_cons_iff.mp hp with rfl | hp
    · exact hle
    · exact h.tries_le past hp

theorem Affords.again (h : Affords start r limit (n + 1) (k + 1) true log state) (ht : event.Tries frame) :
    Affords start r limit n k true (event :: log) state := by
  have hle : tries start (event :: log) ≤ tries start log + 1 := tries_frame_le ht
  have ha := h.again_le (.inl rfl)
  exact h.sent ht (by omega) fun _ => by omega

theorem Affords.untracked (h : Affords start r limit (n + 1) k false log state) {m : Message} {i : UInt8}
    (hf : m.frame i = .ok frame) (ht : event.Tries frame) (hm : Session.isTracked m.kind = false)
    (ho : state.outstanding = none) : Affords start r limit n k' false (event :: log) state := by
  refine h.sent ht ?_ fun hne => absurd ho (hne.resolve_left (by simp))
  rw [tries_of_isTry ht (isTry_of_untracked hf ht hm (h.state_eq ▸ ho))]
  exact h.tries_now

theorem Affords.received (h : Affords start r limit n k seen log state) (m : Message) :
    Affords start r limit n k seen (.received m :: log) (state.receive m).state := by
  refine h.idle ?_ rfl (tries_received start m log) (state.outstanding_receive m)
  rw [h.state_eq]
  rfl

theorem Affords.recorded (h : Affords start r limit n k seen log state) (m : Message) :
    Affords start r limit n r true (.changed (.record m) :: log) (state.change (.record m)) := by
  refine ⟨?_,?_,?_,fun _ => ?_⟩
  · rw [h.state_eq]
    rfl
  · exact h.sendings_le
  · intro past hp
    rcases List.suffix_cons_iff.mp hp with rfl | hp
    · exact Nat.zero_le r
    · exact h.tries_le past hp
  · exact Nat.le_of_eq (Nat.zero_add r)

/-- What is sent as an answer is an acknowledgment, or has been refused before. -/
theorem Affords.replied (h : Affords start r limit n k seen log state) {m reply : Message} {i : UInt8}
    (hreply : (state.receive m).reply = some reply) (hf : reply.frame i = .ok frame)
    (ht : event.Tries frame) :
    Affords start r limit n k seen (event :: .received m :: log) (state.receive m).state := by
  have hr := h.received m
  have htries : tries start (event :: .received m :: log) = tries start (.received m :: log) := by
    refine tries_of_isTry ht ?_
    rw [isTry,answerDue_of_reply (h.state_eq ▸ hreply) hf]
    rfl
  refine ⟨by cases ht <;> exact hr.state_eq,?_,?_,fun hne => ?_⟩
  · have hrefusals := refusals_le event (.received m :: log)
    rcases reply_cases hreply with rfl | ⟨rfl,-⟩
    · have hsendings := hr.sendings_le
      have hack : event.isSending = false := by
        simp [Event.isSending,ht.frame?_eq,isAck_of_frame hf]
      rw [sendings_of_isSending hack]
      omega
    · have hsendings := h.sendings_le
      have hcost := SessionState.sendings_le event (.received .nack :: log)
      have hidle : sendings (.received .nack :: log) = sendings log := sendings_of_isSending rfl log
      rw [refusals_nack] at hrefusals
      omega
  · intro past hp
    rcases List.suffix_cons_iff.mp hp with rfl | hp
    · exact htries ▸ hr.tries_now
    · exact hr.tries_le past hp
  · rw [htries]
    exact hr.again_le hne

theorem keeps_affords : receiver.Keeps (Affords start r limit n k seen) where
  received := fun m h => h.received m
  replied := fun _ _ _ _ _ h hr hf ht => h.replied hr hf ht
  broke := fun _ h => h.idle h.state_eq rfl (by simp [tries,isTry,Event.frame?]) (.inr rfl)

end SessionState

end RemotePyMite
