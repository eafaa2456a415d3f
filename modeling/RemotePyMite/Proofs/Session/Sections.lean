import RemotePyMite.Proofs.Session.Incoming
import RemotePyMite.Proofs.Session.Triple

/-! # The blocks that a session sends

A session sends a block again until the target has acknowledged it.  `blocks` reads the log
without these repetitions: a block counts once from the moment it is recorded as outstanding,
however often it is sent before anything else is recorded.
-/
namespace RemotePyMite

def Frame.block? (f : Frame) : Option Block :=
  if Kind.ofWire? f.kind = some .memAddBlock then some ⟨f.data⟩ else none

namespace Session

/-- The last block that was sent since a message was recorded last; the latest event comes
first. -/
def lastBlock : List (Event SessionChange) → Option Block
  | [] => none
  | .sent frame :: earlier => frame.block?.or (lastBlock earlier)
  | .changed (.record _) :: _ => none
  | _ :: earlier => lastBlock earlier

/-- The blocks that were sent, first to last, without immediate repetitions of what was
recorded. -/
def blocks : List (Event SessionChange) → List Block
  | [] => []
  | .sent frame :: earlier =>
    match frame.block? with
    | none => blocks earlier
    | some block =>
      if lastBlock earlier = some block then blocks earlier else blocks earlier ++ [block]
  | _ :: earlier => blocks earlier

/-- These blocks were sent, and one that is outstanding was sent last. -/
def Sent (sent : List Block) (events : List (Event SessionChange)) (state : SessionState) : Prop :=
  blocks events = sent ∧
    ∀ block, state.outstanding = some (.memAddBlock block) → lastBlock events = some block

theorem block?_frame {m : Message} {n : UInt8} {frame : Frame} (h : m.frame n = .ok frame) :
    frame.block? = match m with
      | .memAddBlock block => some block
      | _ => none := by
  obtain ⟨-,hdata⟩ := Message.wire_of_frame h
  rw [Frame.block?,Message.kind_of_frame h]
  cases m with
  | memAddBlock block =>
    have hd : block.data = frame.data := Except.ok.inj hdata
    rw [← hd]
    rfl
  | _ => rfl

variable {sent : List Block} {block : Block} {events : List (Event SessionChange)} {state : SessionState}

/-- A frame of the block that was sent last, or of a message that is no block, is no news, whether it is
written whole or not. -/
theorem blocks_again {m : Message} {n : UInt8} {frame : Frame} {event : Event SessionChange}
    (hf : m.frame n = .ok frame) (ht : event.Tries frame)
    (hm : ∀ block, m = .memAddBlock block → lastBlock events = some block) :
    blocks (event :: events) = blocks events ∧ lastBlock (event :: events) = lastBlock events := by
  cases ht with
  | unsent => exact ⟨rfl,rfl⟩
  | sent =>
    have hb := block?_frame hf
    cases m with
    | memAddBlock block => simp [blocks,lastBlock,hb,hm block rfl]
    | _ => simp [blocks,lastBlock,hb]

theorem Sent.again (h : Sent sent events state) {m : Message} {n : UInt8} {frame : Frame}
    {event : Event SessionChange} (hf : m.frame n = .ok frame) (ht : event.Tries frame)
    (hm : ∀ block, m = .memAddBlock block → lastBlock events = some block) :
    Sent sent (event :: events) state := by
  obtain ⟨hblocks,hlast⟩ := blocks_again hf ht hm
  exact ⟨hblocks.trans h.1,fun block ho => hlast.trans (h.2 block ho)⟩

theorem Sent.received (h : Sent sent events state) (m : Message) :
    Sent sent (.received m :: events) (state.receive m).state := by
  refine ⟨h.1,?_⟩
  intro block ho
  rcases state.outstanding_receive m with hr | hr
  · cases hr.symm.trans ho
  · exact h.2 block (hr.symm.trans ho)

/-- An answer is no block, or the one that is outstanding and was sent last. -/
theorem Sent.last_of_reply (h : Sent sent events state) {m reply : Message}
    (hr : (state.receive m).reply = some reply) :
    ∀ block, reply = .memAddBlock block → lastBlock events = some block := by
  rintro block rfl
  rcases SessionState.reply_receive hr with hack | ⟨ho,-⟩
  · cases hack
  · exact h.2 block ho

/-- These blocks were sent, and if the message is a block it was sent last. -/
def SentLast (sent : List Block) (m : Message) (events : List (Event SessionChange)) (state : SessionState) :
    Prop :=
  Sent sent events state ∧ ∀ block, m = .memAddBlock block → lastBlock events = some block

theorem keeps_sentLast (sent : List Block) (m : Message) :
    SessionState.receiver.Keeps (SentLast sent m) where
  received := fun k h => ⟨h.1.received k,h.2⟩
  replied := by
    intro events state k reply n frame event h hreply hf ht
    have hlast : ∀ block, reply = .memAddBlock block → lastBlock (.received k :: events) = some block :=
      h.1.last_of_reply hreply
    refine ⟨(h.1.received k).again hf ht hlast,fun block hm => ?_⟩
    exact (blocks_again hf ht hlast).2.trans (h.2 block hm)
  broke := fun _ h => h

theorem keeps_sent (sent : List Block) : SessionState.receiver.Keeps (Sent sent) where
  received := fun m h => h.received m
  replied := fun m _ _ _ _ h hreply hf ht => (h.received m).again hf ht (h.last_of_reply hreply)
  broke := fun _ h => h

open RemotePyMite.Action

variable {base : List (Event SessionChange)}

def AnyError (_ : SessionError) (_ : Session) : Prop :=
  True

/-- These blocks were sent and nothing is outstanding. -/
def SentAll (sent : List Block) (events : List (Event SessionChange)) (state : SessionState) :
    Prop :=
  Sent sent events state ∧ state.outstanding = none

theorem stable_sentAll (sent : List Block) : Stable (Since base (SentAll sent)) :=
  stable_meets (fun _ _ _ _ => trivial) (keeps_sent sent).upholds.free

theorem triple_waitOutstanding :
    Triple (Since base (Sent sent)) waitOutstanding (fun _ => Since base (SentAll sent)) AnyError := by
  refine (Triple.waitOutstanding (A := fun m => Since base (SentLast sent m))
    (stable_since (keeps_sent sent)) (fun m => stable_since (keeps_sentLast sent m))
    (fun _ _ _ _ => trivial) ?_ fun m => ?_).post fun _ s hs => hs.1.and (χ := (·.outstanding = none)) hs.2
  · rintro m s ⟨-,events,hl,h⟩ ho
    refine ⟨trivial,events,hl,h,?_⟩
    rintro block rfl
    exact h.2 block ho
  · refine Triple.transmit (keeps_sentLast sent m).upholds (keeps_sent sent).upholds ?_ fun _ _ _ _ => trivial
    exact fun h hf ht => h.1.again hf ht h.2

theorem triple_transmitOther {message : Message} (hm : ∀ block, message ≠ .memAddBlock block) :
    Triple (Since base (Sent sent)) (discard <| transmit message)
      (fun _ => Since base (Sent sent)) AnyError :=
  Triple.transmit (keeps_sent sent).upholds (keeps_sent sent).upholds
    (fun h hf ht => h.again hf ht fun block hb => absurd hb (hm block)) fun _ _ _ _ => trivial

/-- These blocks were sent, and another one is recorded, which may have been sent too. -/
structure Recorded (sent : List Block) (block : Block) (events : List (Event SessionChange))
    (state : SessionState) : Prop where
  outstanding : ∀ other, state.outstanding = some (.memAddBlock other) → other = block
  sent : blocks events = sent ∧ lastBlock events = none ∨
    blocks events = sent ++ [block] ∧ lastBlock events = some block

/-- When the block is sent it is the last of them, whether it was sent before or not. -/
theorem Recorded.sent_frame (h : Recorded sent block events state) {frame : Frame}
    (hb : frame.block? = some block) :
    blocks (.sent frame :: events) = sent ++ [block] ∧ lastBlock (.sent frame :: events) = some block := by
  refine ⟨?_,by rw [lastBlock,hb,Option.some_or]⟩
  rcases h.sent with ⟨hblocks,hlast⟩ | ⟨hblocks,hlast⟩
  · simp [blocks,hb,hlast,hblocks]
  · simp [blocks,hb,hlast,hblocks]

theorem Recorded.received (h : Recorded sent block events state) (m : Message) :
    Recorded sent block (.received m :: events) (state.receive m).state := by
  refine ⟨fun other ho => ?_,h.sent⟩
  rcases state.outstanding_receive m with hr | hr
  · cases hr.symm.trans ho
  · exact h.outstanding other (hr.symm.trans ho)

theorem keeps_recorded (sent : List Block) (block : Block) :
    SessionState.receiver.Keeps (Recorded sent block) where
  received := fun m h => h.received m
  replied := by
    intro events state m reply n frame event h hreply hf ht
    have hr := h.received m
    refine ⟨hr.outstanding,?_⟩
    cases ht with
    | unsent => exact hr.sent
    | sent =>
      have hb := block?_frame hf
      cases reply with
      | memAddBlock other =>
        rcases SessionState.reply_receive hreply with hack | ⟨ho,-⟩
        · cases hack
        · cases h.outstanding other ho
          exact .inr (hr.sent_frame hb)
      | _ => simpa [blocks,lastBlock,hb] using hr.sent
  broke := fun _ h => ⟨h.outstanding,h.sent⟩

theorem triple_post (block : Block) :
    Triple (Since base (SentAll sent)) (post (.memAddBlock block))
      (fun _ => Since base (Sent (sent ++ [block]))) AnyError := by
  refine Triple.postMessage (R := Since base (Recorded sent block))
    (stable_since (keeps_recorded sent block)) (fun _ => ?_) (fun _ => ?_) (by simp [isTracked,Message.kind])
  · refine Triple.update fun _ events state h => ⟨?_,.inl ⟨h.1.1,rfl⟩⟩
    rintro other ⟨⟩
    rfl
  · refine Triple.transmitOr (K := fun _ _ _ => True) (keeps_sent _).upholds (upholds_true _) ?_
      (fun _ _ => trivial) (fun _ _ => trivial) fun _ _ _ _ => trivial
    intro events state n frame h hf
    obtain ⟨hblocks,hlast⟩ := h.sent_frame (block?_frame hf)
    refine ⟨hblocks,fun other ho => ?_⟩
    rw [hlast,h.outstanding other ho]

theorem triple_attemptSync (reset : Bool) (attempts : Nat) :
    Triple (Since base (Sent sent)) (attemptSync reset attempts)
      (fun _ => Since base (Sent sent)) AnyError := by
  have hstable : Stable (Since base (Sent sent)) := stable_since (keeps_sent sent)
  have hgive : Triple (Since base (Sent sent)) (update (.giveUp .sync))
      (fun _ => Since base (Sent sent)) AnyError := by
    refine Triple.update fun _ events state h => ⟨h.1,?_⟩
    intro block ho
    rcases state.outstanding_dropOutstanding .sync with hd | hd
    · cases hd.symm.trans ho
    · exact h.2 block (hd.symm.trans ho)
  have hrecord (reset : Bool) : Triple (Since base (SentAll sent)) (update (.record (.sync (.host reset))))
      (fun _ => Since base (Sent sent)) AnyError :=
    Triple.update fun _ events state h => ⟨h.1.1,nofun⟩
  have hsync := Triple.attemptSync (P := fun _ => Since base (Sent sent)) (fun _ _ hs => hs)
    (fun _ => hstable) (fun _ => hstable) (fun _ => stable_sentAll sent) (fun _ _ => hstable)
    (fun _ _ _ _ => trivial) (fun _ => hgive) (fun _ => triple_waitOutstanding)
    (fun _ => hrecord) (fun _ _ => triple_transmitOther (by simp))
  exact (hsync reset attempts).post fun _ _ hs => hs.1

theorem triple_synchronize :
    Triple (Since base (Sent sent)) synchronize (fun _ => Since base (Sent sent)) AnyError := by
  have hbegin : Triple (Since base (Sent sent)) (update .beginHandshake)
      (fun _ => Since base (Sent sent)) AnyError := Triple.update fun _ _ _ h => h
  exact hbegin.step (stable_since (keeps_sent sent))
    (Triple.tries (P := fun _ => Since base (Sent sent)) (triple_attemptSync true))

/-- A block is sent behind all that were sent before, which have been acknowledged. -/
theorem triple_send (block : Block) :
    Triple (Since base (Sent sent)) (send (.memAddBlock block))
      (fun _ => Since base (Sent (sent ++ [block]))) AnyError := by
  have hstable : Stable (Since base (Sent sent)) := stable_since (keeps_sent sent)
  refine Triple.send hstable (stable_sentAll sent) (fun _ hs _ => hs) (fun _ => ?_)
    triple_waitOutstanding (triple_post block)
  exact ((Triple.hear hstable).bind fun _ => triple_synchronize).pre fun _ hs => hs.1

theorem triple_sendSegments (segments : List Block) :
    Triple (Since base (Sent [])) (sendSegments segments) (fun _ => Since base (Sent segments)) AnyError := by
  have hall := Triple.sendSegments (E := AnyError)
    (P := fun rest s => ∃ sent, sent ++ rest = segments ∧ Since base (Sent sent) s) ?_ segments
  · refine hall.mono (fun s hs => ⟨[],rfl,hs⟩) ?_
    rintro _ s ⟨sent,rfl,hs⟩
    rwa [List.append_nil]
  · refine fun segment rest => Triple.ofExists fun sent => Triple.assume (fun _ hs => hs.1) fun hsent => ?_
    refine (((Triple.hear (stable_since (keeps_sent sent))).bind fun _ => triple_send segment).mono
      (fun _ hs => hs.2) fun _ s hs => ⟨sent ++ [segment],?_,hs⟩)
    rw [← hsent,List.append_assoc,List.singleton_append]

theorem triple_addBlock (space : UInt8) (data : Bytes) (size : Nat) :
    Triple (fun s => s.Since base (Sent []) ∧ s.outgoingSegmentSize = size) (addBlock space data)
      (fun _ s => ∃ segments, Block.segments space data size = .ok segments ∧
        s.Since base (SentAll segments)) AnyError := by
  refine Triple.pre (Triple.addBlock (P := fun x s => s.Since base (Sent []) ∧
      x = Block.segments space data size)
    (R := fun segments s => Block.segments space data size = .ok segments ∧ s.Since base (Sent segments))
    (fun segments => (stable_const _).and (stable_since (keeps_sent segments))) (fun segments => ?_)
    (fun segments => ?_) fun _ _ _ => trivial) ?_
  · refine Triple.assume (φ := Block.segments space data size = .ok segments)
      (fun _ hs => hs.2.symm) fun hseg => ?_
    exact (triple_sendSegments segments).mono (fun _ hs => hs.1) fun _ _ hs => ⟨hseg,hs⟩
  · refine Triple.assume (fun _ hs => hs.1) fun hseg => ?_
    exact triple_waitOutstanding.mono (fun _ hs => hs.2) fun _ _ hs => ⟨segments,hseg,hs⟩
  · rintro s ⟨hs,rfl⟩
    exact ⟨hs,rfl⟩

end Session

end RemotePyMite
