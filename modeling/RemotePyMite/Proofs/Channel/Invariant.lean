import RemotePyMite.Channel.Basic

/-! # What stays true while host and target talk

The log of a channel only grows, and what holds of it, of the receiver and of the connection is
kept if each message that comes in keeps it, with the answer to the message or without, and a
failure of the link does.  Then it is kept until nothing is on its way (`Channel.Meets.settle`).
-/
namespace RemotePyMite
variable {σ ν : Type}

/-- The event is the sending of the frame, whole or not. -/
inductive Event.Tries (frame : Frame) : Event ν → Prop
  | sent : Tries frame (.sent frame)
  | unsent : Tries frame (.unsent frame)

/-- A message that no frame can hold. -/
def Message.Unsendable (m : Message) : Prop :=
  ∀ n frame, m.frame n ≠ .ok frame

/-- What holds of the connection, of the latest events and of the state of the receiver is kept by
all that comes in and by all answers to it, which only a connected channel sends, and always if a
frame can hold them. -/
structure Receiver.Upholds (r : Receiver σ ν) (I : Bool → List (Event ν) → σ → Prop) : Prop where
  received : ∀ {connected events state} m, I connected events state →
    (connected = true → ∀ reply, (r.receive state m).reply = some reply → reply.Unsendable) →
      I connected (.received m :: events) (r.receive state m).state
  replied : ∀ {events state} m {reply n frame event}, I true events state →
    (r.receive state m).reply = some reply → reply.frame n = .ok frame → event.Tries frame →
      I true (event :: .received m :: events) (r.receive state m).state
  broke : ∀ {connected events state} reason, I connected events state →
    I false (.broke reason :: events) (r.broken state reason)

/-- The same for what says nothing about the connection. -/
structure Receiver.Keeps (r : Receiver σ ν) (I : List (Event ν) → σ → Prop) : Prop where
  received : ∀ {events state} m, I events state →
    I (.received m :: events) (r.receive state m).state
  replied : ∀ {events state} m {reply n frame event}, I events state →
    (r.receive state m).reply = some reply → reply.frame n = .ok frame → event.Tries frame →
      I (event :: .received m :: events) (r.receive state m).state
  broke : ∀ {events state} reason, I events state → I (.broke reason :: events) (r.broken state reason)

theorem Receiver.Keeps.upholds {r : Receiver σ ν} {I : List (Event ν) → σ → Prop} (h : r.Keeps I) :
    r.Upholds fun _ => I where
  received := fun m hI _ => h.received m hI
  replied := h.replied
  broke := h.broke

theorem Receiver.Upholds.or {r : Receiver σ ν} {I J : Bool → List (Event ν) → σ → Prop} (h : r.Upholds I)
    (h' : r.Upholds J) :
    r.Upholds fun connected events state => I connected events state ∨ J connected events state where
  received := fun m hs hu => hs.imp (h.received m · hu) (h'.received m · hu)
  replied := fun m _ _ _ _ hs hr hf ht => hs.imp (h.replied m · hr hf ht) (h'.replied m · hr hf ht)
  broke := fun reason hs => hs.imp (h.broke reason) (h'.broke reason)

theorem Receiver.Upholds.and {r : Receiver σ ν} {I J : Bool → List (Event ν) → σ → Prop} (h : r.Upholds I)
    (h' : r.Upholds J) :
    r.Upholds fun connected events state => I connected events state ∧ J connected events state where
  received := fun m hs hu => ⟨h.received m hs.1 hu,h'.received m hs.2 hu⟩
  replied := fun m _ _ _ _ hs hr hf ht => ⟨h.replied m hs.1 hr hf ht,h'.replied m hs.2 hr hf ht⟩
  broke := fun reason hs => ⟨h.broke reason hs.1,h'.broke reason hs.2⟩

theorem upholds_true (r : Receiver σ ν) : r.Upholds fun _ _ _ => True where
  received := fun _ _ _ => trivial
  replied := fun _ _ _ _ _ _ _ _ _ => trivial
  broke := fun _ _ => trivial

theorem Message.wire_of_frame {m : Message} {n : UInt8} {frame : Frame}
    (h : m.frame n = .ok frame) : m.wireId = .ok frame.kind ∧ m.toBytes = .ok frame.data := by
  unfold Message.frame at h
  split at h
  · cases h
  · cases h
  · next kind data hk hd =>
    split at h
    · cases h
      exact ⟨hk,hd⟩
    · cases h

theorem Message.kind_of_frame {m : Message} {n : UInt8} {frame : Frame}
    (h : m.frame n = .ok frame) : Kind.ofWire? frame.kind = some m.kind := by
  obtain ⟨hid,-⟩ := Message.wire_of_frame h
  unfold Message.wireId at hid
  split at hid
  · next id hw =>
    cases hid
    exact Kind.ofWire?_eq_some_iff.mpr hw
  · cases hid

theorem Message.sequence_of_frame {m : Message} {n : UInt8} {frame : Frame}
    (h : m.frame n = .ok frame) : frame.sequence = n := by
  unfold Message.frame at h
  split at h
  · cases h
  · cases h
  · split at h
    · cases h
      rfl
    · cases h

theorem Message.unsendable_of_error {m : Message} {n : UInt8} {e : FrameError}
    (h : m.frame n = .error e) : m.Unsendable := by
  intro k frame hf
  unfold Message.frame at h hf
  cases hw : m.wireId with
  | error e => simp [hw] at hf
  | ok kind =>
    cases hb : m.toBytes with
    | error e => simp [hw,hb] at hf
    | ok data =>
      simp only [hw,hb] at h hf
      split at h
      · cases h
      · next hlen => rw [if_neg hlen] at hf; cases hf

/-- A message that a frame can hold is sent under the next number, or its writing breaks off. -/
theorem FrameWriter.send_cases_of_frame {w : FrameWriter} {m : Message} {frame : Frame}
    (h : m.frame (w.lastSequence + 1) = .ok frame) :
    (∃ stream, w.send m = (.ok frame.sequence,⟨stream,frame.sequence⟩)) ∨
      ∃ e stream, w.send m = (.error e,{ w with stream }) := by
  rw [Message.sequence_of_frame h]
  unfold FrameWriter.send
  dsimp only
  rw [h]
  dsimp only
  split
  · exact .inr ⟨_,_,rfl⟩
  · split
    · exact .inr ⟨_,_,rfl⟩
    · exact .inl ⟨_,rfl⟩

def SessionError.isTimeout : SessionError → Bool
  | .timeout _ _ _ => true
  | _ => false

namespace Channel

/-- `I` holds of the connection and of what happened since the log was `base`. -/
def Meets (base : List (Event ν)) (I : Bool → List (Event ν) → σ → Prop) (c : Channel σ ν) : Prop :=
  ∃ events, c.log = events ++ base ∧ I c.isConnected events c.receiver

variable {r : Receiver σ ν} {base : List (Event ν)} {c : Channel σ ν}
  {I J : Bool → List (Event ν) → σ → Prop}

theorem Meets.mono (h : Meets base I c)
    (hIJ : ∀ connected events state, I connected events state → J connected events state) :
    Meets base J c := by
  obtain ⟨events,hl,hI⟩ := h
  exact ⟨events,hl,hIJ _ _ _ hI⟩

/-- What a channel does to send a message: a frame of it reaches the target, or the writing of the
frame breaks off, or nothing happens, which on a connected channel is so only of a message that no
frame can hold. -/
theorem transmit_cases (c : Channel σ ν) (m : Message) :
    (c.isConnected = true ∧ ∃ n frame, m.frame n = .ok frame ∧
      ((∃ link, c.transmit m = (.ok frame.sequence,
          { c with lastSequence := frame.sequence, link, log := .sent frame :: c.log })) ∨
        ∃ e link, c.transmit m = (.error (.frame e),{ c with link, log := .unsent frame :: c.log }))) ∨
    (c.isConnected = true → m.Unsendable) ∧ ∃ e, c.transmit m = (.error e,c) ∧ e.isTimeout = false := by
  unfold transmit isConnected
  cases hf : c.failure with
  | some reason => exact .inr ⟨by simp,_,rfl,rfl⟩
  | none =>
    dsimp only
    cases hp : c.phase.isOpen with
    | false => exact .inr ⟨by simp,_,rfl,rfl⟩
    | true =>
      rw [if_pos rfl]
      cases hm : m.frame (c.lastSequence + 1) with
      | error e => exact .inr ⟨fun _ => Message.unsendable_of_error hm,_,rfl,rfl⟩
      | ok frame =>
        refine .inl ⟨rfl,_,frame,hm,?_⟩
        obtain ⟨stream,hw⟩ | ⟨e,stream,hw⟩ := FrameWriter.send_cases_of_frame (w := c.writer) hm
        · rw [hw]
          exact .inl ⟨_,rfl⟩
        · rw [hw]
          exact .inr ⟨e,_,rfl⟩

/-- What a message does to a channel: the receiver takes it in, and its answer is sent exactly if a
frame can hold it and the channel is connected. -/
theorem dispatch_cases (r : Receiver σ ν) (c : Channel σ ν) (m : Message) :
    (c.dispatch r m).receiver = (r.receive c.receiver m).state ∧
      (c.dispatch r m).isConnected = c.isConnected ∧
      ((c.dispatch r m).log = .received m :: c.log ∧
          (c.isConnected = true → ∀ reply, (r.receive c.receiver m).reply = some reply → reply.Unsendable) ∨
        c.isConnected = true ∧ ∃ reply n frame event, (r.receive c.receiver m).reply = some reply ∧
          reply.frame n = .ok frame ∧ event.Tries frame ∧
          (c.dispatch r m).log = event :: .received m :: c.log) := by
  let d : Channel σ ν := { c with
    receiver := (r.receive c.receiver m).state
    segmentSize := (r.receive c.receiver m).segmentSize.getD c.segmentSize
    log := .received m :: c.log }
  unfold Channel.dispatch
  dsimp only
  cases hreply : (r.receive c.receiver m).reply with
  | none => exact ⟨rfl,rfl,.inl ⟨rfl,by simp⟩⟩
  | some reply =>
    change (d.transmit reply).2.receiver = _ ∧ (d.transmit reply).2.isConnected = _ ∧
      ((d.transmit reply).2.log = _ ∧ _ ∨ _ ∧ ∃ reply' n frame event, _ ∧ _ ∧ _ ∧ (d.transmit reply).2.log = _)
    obtain ⟨hc,n,frame,hf,⟨link,ht⟩ | ⟨e,link,ht⟩⟩ | ⟨hu,e,ht,-⟩ := transmit_cases d reply
    · rw [ht]
      exact ⟨rfl,rfl,.inr ⟨hc,reply,n,frame,_,rfl,hf,.sent,rfl⟩⟩
    · rw [ht]
      exact ⟨rfl,rfl,.inr ⟨hc,reply,n,frame,_,rfl,hf,.unsent,rfl⟩⟩
    · rw [ht]
      refine ⟨rfl,rfl,.inl ⟨rfl,?_⟩⟩
      rintro hc _ ⟨⟩
      exact hu hc

theorem phase_failure_transmit (c : Channel σ ν) (m : Message) :
    (c.transmit m).2.phase = c.phase ∧ (c.transmit m).2.failure = c.failure := by
  obtain ⟨-,_,_,-,⟨_,ht⟩ | ⟨_,_,ht⟩⟩ | ⟨-,_,ht,-⟩ := transmit_cases c m <;> rw [ht] <;> exact ⟨rfl,rfl⟩

theorem phase_failure_dispatch (r : Receiver σ ν) (c : Channel σ ν) (m : Message) :
    (c.dispatch r m).phase = c.phase ∧ (c.dispatch r m).failure = c.failure := by
  unfold dispatch
  dsimp only
  split
  · exact ⟨rfl,rfl⟩
  · exact phase_failure_transmit _ _

theorem phase_failure_drain (r : Receiver σ ν) (c : Channel σ ν) :
    (c.drain r).phase = c.phase ∧ (c.drain r).failure = c.failure := by
  fun_induction drain r c with
  | case1 c d _ => exact ⟨rfl,rfl⟩
  | case2 c m d _ ih =>
    obtain ⟨hphase,hfailure⟩ := phase_failure_dispatch r { c with decoder := d } m
    exact ⟨ih.1.trans hphase,ih.2.trans hfailure⟩

theorem phase_failure_reads (r : Receiver σ ν) (pieces : List Bytes) (c : Channel σ ν) :
    (pieces.foldl (read r) c).phase = c.phase ∧ (pieces.foldl (read r) c).failure = c.failure := by
  induction pieces generalizing c with
  | nil => exact ⟨rfl,rfl⟩
  | cons piece rest ih =>
    obtain ⟨hphase,hfailure⟩ := phase_failure_drain r { c with decoder := c.decoder.push piece }
    exact ⟨(ih _).1.trans hphase,(ih _).2.trans hfailure⟩

theorem Meets.dispatch (h : Meets base I c) (hr : r.Upholds I) (m : Message) :
    Meets base I (c.dispatch r m) := by
  obtain ⟨events,hl,hI⟩ := h
  obtain ⟨hreceiver,hsame,⟨hlog,hu⟩ | ⟨hc,reply,n,frame,event,hreply,hf,ht,hlog⟩⟩ := dispatch_cases r c m
  · refine ⟨.received m :: events,?_,?_⟩
    · rw [hlog,hl,List.cons_append]
    · rw [hreceiver,hsame]
      exact hr.received m hI hu
  · rw [hc] at hI
    refine ⟨event :: .received m :: events,?_,?_⟩
    · rw [hlog,hl,List.cons_append,List.cons_append]
    · rw [hreceiver,hsame,hc]
      exact hr.replied m hI hreply hf ht

theorem Meets.drain (h : Meets base I c) (hr : r.Upholds I) : Meets base I (c.drain r) := by
  fun_induction Channel.drain r c with
  | case1 c decoder _ => exact h
  | case2 c message decoder _ ih => exact ih (Meets.dispatch (c := { c with decoder }) h hr message)

theorem Meets.fail (h : Meets base I c) (hr : r.Upholds I) (reason : String) :
    Meets base I (c.fail r reason) := by
  obtain ⟨events,hl,hI⟩ := h
  have hlost : (c.fail r reason).isConnected = false := by
    simp [Channel.fail,isConnected]
  refine ⟨.broke reason :: events,congrArg (_ :: ·) hl,?_⟩
  rw [hlost]
  exact hr.broke reason hI

theorem Meets.take (h : Meets base I c) (hr : r.Upholds I) (arrival : Arrival) :
    Meets base I (c.take r arrival) := by
  unfold Channel.take
  split
  · next hc =>
    clear hc
    cases arrival with
    | chunk bytes =>
      dsimp only
      generalize bytes.pieces readSize = pieces
      induction pieces generalizing c with
      | nil => exact h
      | cons piece rest ih =>
        exact ih (Meets.drain (c := { c with decoder := c.decoder.push piece }) h hr)
    | closed => exact h.fail hr closedReason
    | failing error =>
      dsimp only
      split
      · exact h
      · exact h.fail hr (unreadableReason error)
  · exact h

theorem Meets.takeAll (h : Meets base I c) (hr : r.Upholds I) : Meets base I (c.takeAll r) := by
  unfold Channel.takeAll
  have hc : Meets base I { c with link := { c.link with inbox := [] } } := h
  generalize { c with link := { c.link with inbox := [] } } = d at hc
  generalize c.link.inbox = arrivals
  induction arrivals generalizing d with
  | nil => exact hc
  | cons arrival rest ih => exact ih _ (hc.take hr arrival)

theorem Meets.settle (h : Meets base I c) (hr : r.Upholds I) : Meets base I (c.settle r) := by
  fun_induction Channel.settle r c with
  | case1 c _ => exact h
  | case2 c _ ih => exact ih (h.takeAll hr)

theorem Meets.accept (h : Meets base I c) (hr : r.Upholds I) (arrivals : List Arrival) :
    Meets base I (c.accept r arrivals) :=
  Meets.settle (c := { c with link := { c.link with inbox := c.link.inbox ++ arrivals } }) h hr

end Channel

end RemotePyMite
