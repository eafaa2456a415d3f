import Mathlib.Data.List.Forall2
import RemotePyMite.Proofs.Channel.Arrival
import RemotePyMite.Proofs.Message.Lists
import RemotePyMite.Proofs.Message.MemoryText
import RemotePyMite.Proofs.Session.Incoming
import RemotePyMite.Proofs.Session.Triple

/-! # What a read gives

A session that was just opened does the handshake before it asks for a list.  From a target that
takes part in it and answers the request, a read gives exactly the list that the target has told
(`read_lists`).
-/
namespace RemotePyMite

/-- What is written carries exactly these messages in segments of `size` bytes, in frames with any
numbers and in any chunks. -/
def Reaction.Tells (size : Nat) (reaction : Reaction) (messages : List Message) : Prop :=
  reaction.closes = false ∧ ∃ rows : List (List Frame),
    List.Forall₂ (Message.CarriedBy size) messages rows ∧
      reaction.chunks.flatten = rows.flatten.flatMap Frame.bytes

/-- To parameters of the host the target answers with an acknowledgment and with its own
parameters. -/
def Target.Handshakes (target : Target) (p : SyncParameters) : Prop :=
  ∀ earlier n reset frame, (Message.sync (.host reset)).frame n = .ok frame →
    let reaction := target.react earlier frame
    reaction.Tells p.receiveBufferSize.toNat [.ack,.sync p] ∨
      reaction.Tells p.receiveBufferSize.toNat [.sync p,.ack]

/-- The target answers a request with one message, in segments of `size` bytes. -/
def Target.Replies (target : Target) (size : Nat) (request reply : Message) : Prop :=
  ∀ earlier n frame, request.frame n = .ok frame → (target.react earlier frame).Tells size [reply]

/-- The frames of a message, all with the number zero. -/
def Message.frames (size : Nat) (m : Message) : List Frame :=
  match m.parts size with
  | .ok parts => parts.map fun part => ⟨0,part.1,part.2⟩
  | .error _ => []

/-- A target that has messages to tell about each kind of frame but acknowledgments, and writes
them in segments of `size` bytes and in chunks of seven bytes. -/
def Target.telling (size : Nat) (messages : UInt8 → List Message) (answers : Nat) : Target where
  react _ frame :=
    if frame.kind = ackId then .silent
    else
      let frames := (messages frame.kind).flatMap (Message.frames size)
      ⟨Bytes.pieces 7 (frames.flatMap Frame.bytes),false⟩
  answers

theorem Target.ignoresAcks_telling (size : Nat) (messages : UInt8 → List Message) (answers : Nat) :
    (telling size messages answers).IgnoresAcks := by
  intro earlier frame hf
  simp only [telling,hf,↓reduceIte]
  rfl

theorem Target.tells_telling {size : Nat} {messages : UInt8 → List Message} {answers : Nat}
    {frame : Frame} (hf : frame.kind ≠ ackId)
    (hm : ∀ m ∈ messages frame.kind, m.kind ≠ .invalid ∧ m.kind ≠ .defective)
    (earlier : List Frame) :
    ((telling size messages answers).react earlier frame).Tells size (messages frame.kind) := by
  simp only [telling,hf,↓reduceIte]
  refine ⟨rfl,(messages frame.kind).map (Message.frames size),?_,?_⟩
  · rw [List.forall₂_map_right_iff,List.forall₂_same]
    intro m hmem
    obtain ⟨id,data,-,-,-,hp⟩ := m.exists_parts size (hm m hmem)
    rw [Message.CarriedBy,Message.frames,hp]
    simp [Function.comp_def,Frame.part]
  · rw [Bytes.flatten_pieces]
    rfl

namespace Session
open RemotePyMite.Action

/-- Nothing is under way between the session and the target, and nothing will come of itself. -/
structure AtRest (target : Target) (answers : Nat) (x : SessionState × Nat) (s : Session) : Prop where
  rests : s.channel.Rests target answers x
  retries : 0 < s.retries
  quiet : s.meanwhile = []

/-- No error can occur. -/
def NoError (_ : SessionError) (_ : Session) : Prop :=
  False

variable {target : Target} {answers : Nat} {state : SessionState} {size : Nat} {p : SyncParameters}

theorem AtRest.state_eq {s : Session} (h : AtRest target answers (state,size) s) : s.state = state :=
  h.rests.receiver

theorem stable_atRest {x : SessionState × Nat} : Stable (AtRest target answers x) :=
  stable_quiet fun _ hs => hs.quiet

theorem rests_update (change : SessionChange) :
    Triple (AtRest target answers (state,size)) (update change)
      (fun _ => AtRest target answers (state.change change,size)) NoError := by
  intro s h
  refine ⟨⟨⟨h.rests.phase,h.rests.failure,h.rests.target,h.rests.answersLeft,h.rests.inbox,
    h.rests.closing,h.rests.works,?_,h.rests.segmentSize⟩,h.rests.buffer,h.rests.pending⟩,h.retries,h.quiet⟩
  exact congrArg (·.change change) h.rests.receiver

theorem rests_transmit {m : Message} {y : SessionState × Nat} (ht : target.IgnoresAcks)
    (hm : ∀ n, ∃ frame, m.frame n = .ok frame)
    (hreact : ∀ earlier n frame, m.frame n = .ok frame →
      Channel.Leads SessionState.receiver (state,size) (target.react earlier frame) y) :
    Triple (AtRest target (answers + 1) (state,size)) (discard <| transmit m)
      (fun _ => AtRest target answers y) NoError := by
  suffices hsend : Triple (AtRest target (answers + 1) (state,size)) (transmit m)
      (fun _ => AtRest target answers y) NoError from hsend.bind fun _ => Triple.pure fun _ hs => hs
  refine Triple.get.bind fun s => ?_
  refine Triple.assume (φ := AtRest target (answers + 1) (state,size) s)
    (by rintro _ ⟨hs,rfl⟩; exact hs) fun h => ?_
  obtain ⟨n,d,hd,hrests⟩ := h.rests.exchange ht hm hreact
  rw [hd]
  refine (Triple.set (Q := fun _ => AtRest target answers y) ?_).bind fun _ => ?_
  · exact ⟨hrests,h.retries,h.quiet⟩
  · exact Triple.pure fun _ hs => hs

theorem rests_awaitState (done : SessionState → Bool) :
    Triple (AtRest target answers (state,size)) (awaitState done)
      (fun x s => AtRest target answers (state,size) s ∧ x = done state) NoError := by
  refine (Triple.awaitState fun reason s h _ hf => ?_).post fun x s hs => ⟨hs.1,?_⟩
  · cases h.rests.failure.symm.trans hf
  · rw [hs.2,hs.1.state_eq]

theorem rests_waitOutstanding (ho : state.outstanding = none) :
    Triple (AtRest target answers (state,size)) waitOutstanding
      (fun _ => AtRest target answers (state,size)) NoError :=
  Triple.waitNothing fun s h => by rw [h.state_eq,ho]

/-- A call that tries at least once gives what its first try gives. -/
theorem rests_attempts {α : Type} {action : Nat → Action α} {Q : α → Session → Prop} {x : SessionState × Nat}
    (h : ∀ attempts, Triple (AtRest target answers x) (action (attempts + 1)) Q NoError) :
    Triple (AtRest target answers x) (do action (← get).retries) Q NoError := by
  refine Triple.get.bind fun s => Triple.assume (φ := 0 < s.retries) ?_ fun hs => ?_
  · rintro _ ⟨hs,rfl⟩
    exact hs.retries
  · obtain ⟨attempts,ha⟩ := Nat.exists_eq_add_one.mpr hs
    rw [ha]
    exact (h attempts).pre fun _ hs => hs.1

theorem size_ne_zero (hp : 20 ≤ p.receiveBufferSize.toNat) : p.receiveBufferSize ≠ 0 := by
  intro h
  rw [h] at hp
  exact absurd hp (by decide)

/-- What the session knows once the handshake with a target is done. -/
def synced (state : SessionState) (p : SyncParameters) : SessionState :=
  { state with
    parameters := some p
    syncedIncoming := true
    syncedOutgoing := true
    outstanding := none }

theorem hear_ack (ho : state.outstandingKind = some .sync) :
    Channel.hear SessionState.receiver (state,size) .ack =
      ({ state with outstanding := none, syncedOutgoing := true },size) := by
  simp [Channel.hear,SessionState.receiver,SessionState.receive,SessionState.onAck,ho]

theorem hear_sync (hp : p.receiveBufferSize ≠ 0) :
    Channel.hear SessionState.receiver (state,size) (.sync p) =
      ({ state with parameters := some p, syncedIncoming := true },p.receiveBufferSize.toNat) := by
  simp [Channel.hear,SessionState.receiver,SessionState.receive,SessionState.onSync,hp]

/-- Both orders of an answer to the parameters of the host do the same. -/
theorem foldl_hear_handshake (size : Nat) (hp : p.receiveBufferSize ≠ 0)
    (ho : state.outstandingKind = some .sync) :
    [.ack,.sync p].foldl (Channel.hear SessionState.receiver) (state,size) =
        (synced state p,p.receiveBufferSize.toNat) ∧
      [.sync p,.ack].foldl (Channel.hear SessionState.receiver) (state,size) =
        (synced state p,p.receiveBufferSize.toNat) := by
  constructor
  · rw [List.foldl_cons,hear_ack ho,List.foldl_cons,hear_sync hp]
    rfl
  · rw [List.foldl_cons,hear_sync hp,List.foldl_cons,hear_ack]
    · rfl
    · exact ho

/-- The messages of a handshake are short, so they arrive alike whatever the host expects. -/
theorem fits_of_short {x : SessionState × Nat} {m : Message} {frames : List Frame}
    (hm : m = .ack ∨ m = .sync p) (h : m.CarriedBy size frames) (hsize : 20 ≤ size)
    (hx : 20 ≤ x.2) (hmax : x.2 ≤ 255) : Channel.Fits SessionState.receiver x m frames := by
  obtain ⟨data,hdata,hlen⟩ : ∃ data, m.toBytes = .ok data ∧ data.length < 20 := by
    rcases hm with rfl | rfl
    · exact ⟨_,rfl,by decide⟩
    · exact ⟨_,rfl,by simp [SyncParameters.toBytes]⟩
  refine ⟨by omega,hmax,h.of_short hdata (by omega) (by omega),?_,?_⟩
  · intro other ho
    cases ho.symm.trans hdata
    exact Nat.le_trans (Nat.le_of_lt hlen) (by decide)
  · intro reply hr
    rcases hm with rfl | rfl
    · cases hr
    · simp only [SessionState.receiver,SessionState.receive,SessionState.onSync] at hr
      split at hr
      · exact (Option.some.inj hr).symm
      · cases hr

theorem leads_handshake (hp : 20 ≤ p.receiveBufferSize.toNat) (hsize : 20 ≤ size)
    (hmax : size ≤ 255) {m m' : Message} (hm : m = .ack ∨ m = .sync p) (hm' : m' = .ack ∨ m' = .sync p)
    {reaction : Reaction} (h : reaction.Tells p.receiveBufferSize.toNat [m,m']) :
    Channel.Leads SessionState.receiver (state,size) reaction
      ([m,m'].foldl (Channel.hear SessionState.receiver) (state,size)) := by
  obtain ⟨hcloses,rows,hrows,hflat⟩ := h
  cases hrows with
  | @cons _ frames _ _ h hrest =>
    cases hrest with
    | @cons _ more _ _ h' hnil =>
      cases hnil
      have hnext : 20 ≤ (Channel.hear SessionState.receiver (state,size) m).2 ∧
          (Channel.hear SessionState.receiver (state,size) m).2 ≤ 255 := by
        rcases hm with rfl | rfl
        · exact ⟨hsize,hmax⟩
        · rw [hear_sync (size_ne_zero hp)]
          exact ⟨hp,Nat.le_of_lt_succ p.receiveBufferSize.toNat_lt⟩
      have hfits := fits_of_short (x := (state,size)) hm h hp hsize hmax
      have hfits' := fits_of_short hm' h' hp hnext.1 hnext.2
      refine ⟨hcloses,_,_,by simp,.cons hfits (.cons hfits' (.nil _)),?_,rfl⟩
      simpa using hflat

variable {reset : Bool}

theorem rests_transmitSync (ht : target.IgnoresAcks) (hsync : target.Handshakes p)
    (hp : 20 ≤ p.receiveBufferSize.toNat) (hsize : 20 ≤ size) (hmax : size ≤ 255)
    (ho : state.outstandingKind = some .sync) :
    Triple (AtRest target (answers + 1) (state,size)) (discard <| transmit (.sync (.host reset)))
      (fun _ => AtRest target answers (synced state p,p.receiveBufferSize.toNat)) NoError := by
  obtain ⟨hack,hother⟩ := foldl_hear_handshake size (size_ne_zero hp) ho
  refine rests_transmit ht (fun n => ⟨⟨n,3,(SyncParameters.host reset).toBytes⟩,?_⟩) ?_
  · cases reset <;> rfl
  · intro earlier n frame hf
    rcases hsync earlier n reset frame hf with h | h
    · rw [← hack]
      exact leads_handshake hp hsize hmax (.inl rfl) (.inr rfl) h
    · rw [← hother]
      exact leads_handshake hp hsize hmax (.inr rfl) (.inl rfl) h

theorem rests_synchronize (ht : target.IgnoresAcks) (hsync : target.Handshakes p)
    (hp : 20 ≤ p.receiveBufferSize.toNat) (hsize : 20 ≤ size) (hmax : size ≤ 255)
    (ho : state.outstanding = none) :
    Triple (AtRest target (answers + 1) (state,size)) synchronize
      (fun _ => AtRest target answers (synced state p,p.receiveBufferSize.toNat)) NoError := by
  let begun := state.change .beginHandshake
  have hgive : begun.change (.giveUp .sync) = begun := by
    simp [begun,SessionState.change,SessionState.dropOutstanding,SessionState.outstandingKind,ho]
  have hsynced : ∀ reset, synced (begun.change (.record (.sync (.host reset)))) p = synced state p :=
    fun _ => rfl
  have hattempt : ∀ reset attempts, Triple (AtRest target (answers + 1) (begun,size))
      (attemptSync reset (attempts + 1))
      (fun _ => AtRest target answers (synced state p,p.receiveBufferSize.toNat)) NoError := by
    intro reset attempts
    refine (rests_update (.giveUp .sync)).step stable_atRest ?_
    rw [hgive]
    have hfree : begun.outstanding = none := ho
    refine (rests_waitOutstanding hfree).step stable_atRest ?_
    refine (rests_update _).step stable_atRest ?_
    refine (rests_transmitSync ht hsync hp hsize hmax rfl).step stable_atRest ?_
    rw [hsynced]
    refine (rests_awaitState _).bind fun done => Triple.assume (φ := done = true) (fun s hs => hs.2) ?_
    rintro rfl
    exact Triple.pure fun s hs => hs.1
  exact (rests_update .beginHandshake).step stable_atRest (rests_attempts (hattempt true))

/-- The target answers a request with a message that tells `found`. -/
structure Answered {α : Type} (target : Target) (p : SyncParameters) (query : Query α)
    (reply : Message) (found : α) : Prop where
  request : ∀ n, ∃ frame, query.request.frame n = .ok frame
  replies : target.Replies p.receiveBufferSize.toNat query.request reply
  length_le : ∀ data, reply.toBytes = .ok data → data.length ≤ maxReassembled
  acknowledged : ∀ state : SessionState, ∀ answer, (state.receive reply).reply = some answer →
    answer = .ack
  found : ∀ state : SessionState, state.parameters = some p →
    query.answer (state.receive reply).state = some found

theorem leads_reply {reply : Message} {reaction : Reaction} (hsize : 20 ≤ size) (hmax : size ≤ 255)
    (hlen : ∀ data, reply.toBytes = .ok data → data.length ≤ maxReassembled)
    (hack : ∀ answer, (state.receive reply).reply = some answer → answer = .ack)
    (h : reaction.Tells size [reply]) :
    Channel.Leads SessionState.receiver (state,size) reaction
      (Channel.hear SessionState.receiver (state,size) reply) := by
  obtain ⟨hcloses,rows,hrows,hflat⟩ := h
  cases hrows with
  | @cons _ frames _ _ h hnil =>
    cases hnil
    have hfits : Channel.Fits SessionState.receiver (state,size) reply frames :=
      ⟨by omega,hmax,h,hlen,hack⟩
    refine ⟨hcloses,_,_,by simp,.cons hfits (.nil _),?_,rfl⟩
    simpa using hflat

variable {α : Type} {query : Query α} {reply : Message} {found : α}

theorem rests_transmitRequest (ht : target.IgnoresAcks) (hp : 20 ≤ p.receiveBufferSize.toNat)
    (hq : Answered target p query reply found) (hknown : state.parameters = some p) :
    Triple (AtRest target (answers + 1) (state,p.receiveBufferSize.toNat))
      (discard <| transmit query.request)
      (fun _ s => query.answer s.state = some found ∧ s.meanwhile = []) NoError := by
  have hmax := Nat.le_of_lt_succ p.receiveBufferSize.toNat_lt
  refine (rests_transmit ht hq.request fun earlier n frame hf =>
    leads_reply hp hmax hq.length_le (hq.acknowledged state) (hq.replies earlier n frame hf)).post ?_
  intro _ s hs
  rw [hs.state_eq]
  exact ⟨hq.found state hknown,hs.quiet⟩

/-- A request is sent once the handshake is done. -/
theorem rests_send (ht : target.IgnoresAcks) (hsync : target.Handshakes p)
    (hp : 20 ≤ p.receiveBufferSize.toNat) (hsize : 20 ≤ size) (hmax : size ≤ 255)
    (hq : Answered target p query reply found) (hkind : needsNoSync query.request.kind = false)
    (ho : state.outstanding = none) (hnew : state.syncedOutgoing = false) :
    Triple (AtRest target (answers + 2) (state,size)) (send query.request)
      (fun _ s => query.answer s.state = some found ∧ s.meanwhile = []) NoError := by
  let known : SessionState := synced state p
  have hrecorded : (known.change (.record query.request)).parameters = some p := rfl
  have hfree : known.outstanding = none := rfl
  refine Triple.send (R := AtRest target (answers + 1) (known,p.receiveBufferSize.toNat)) stable_atRest
    stable_atRest ?_ (fun _ => ?_) (rests_waitOutstanding hfree)
    (Triple.postMessage stable_atRest (fun _ => rests_update _)
      (fun _ => rests_transmitRequest ht hp hq hrecorded) fun _ => rests_transmitRequest ht hp hq rfl)
  · rintro s hs (h | h)
    · cases hkind.symm.trans h
    · rw [hs.state_eq,hnew] at h
      cases h
  · exact ((Triple.hear stable_atRest).bind fun _ =>
      rests_synchronize ht hsync hp hsize hmax ho).pre fun _ hs => hs.1

/-- A read of what the target tells, in a session that has done no handshake. -/
theorem rests_read (ht : target.IgnoresAcks) (hsync : target.Handshakes p)
    (hp : 20 ≤ p.receiveBufferSize.toNat) (hsize : 20 ≤ size) (hmax : size ≤ 255)
    (hq : Answered target p query reply found) (hkind : needsNoSync query.request.kind = false)
    (ho : (state.change query.forget).outstanding = none)
    (hnew : (state.change query.forget).syncedOutgoing = false) :
    Triple (AtRest target (answers + 2) (state,size)) (read query) (fun x _ => x = found) NoError := by
  have hask : ∀ attempts, Triple (AtRest target (answers + 2) (state.change query.forget,size))
      (ask query false (attempts + 1)) (fun x _ => x = found) NoError := by
    intro attempts
    refine (Triple.hear stable_atRest).bind fun _ =>
      (rests_send ht hsync hp hsize hmax hq hkind ho hnew).step (stable_quiet fun _ hs => hs.2) ?_
    refine (Triple.await fun reason s hs hnone _ => ?_).bind fun x => ?_
    · cases hs.1.symm.trans hnone
    · refine Triple.assume (φ := x = some found) (fun s hs => hs.2.trans hs.1.1) ?_
      rintro rfl
      have hforget : Triple (fun _ => True) (update query.forget) (fun _ _ => True) NoError :=
        fun _ _ => trivial
      exact (hforget.bind fun _ => Triple.pure fun _ _ => rfl).pre fun _ _ => trivial
  exact (rests_update query.forget).bind fun _ => rests_attempts hask

theorem read_eq_ok (ht : target.IgnoresAcks) (hsync : target.Handshakes p)
    (hanswers : 2 ≤ target.answers) (hp : 20 ≤ p.receiveBufferSize.toNat) {retries : Nat}
    (hretries : 1 ≤ retries) (hq : Answered target p query reply found)
    (hkind : needsNoSync query.request.kind = false)
    (ho : (SessionState.initial.change query.forget).outstanding = none)
    (hnew : (SessionState.initial.change query.forget).syncedOutgoing = false) :
    ((read query).run (ofLink (.ofTarget target) retries)).1 = .ok found := by
  obtain ⟨answers,ha⟩ := Nat.exists_eq_add_of_le' hanswers
  have hfresh : AtRest target (answers + 2) (.initial,50) (ofLink (.ofTarget target) retries) :=
    ⟨⟨⟨rfl,rfl,rfl,ha,rfl,rfl,⟨rfl,rfl⟩,rfl,rfl⟩,rfl,rfl⟩,hretries,rfl⟩
  have hrun := rests_read ht hsync hp (by decide) (by decide) hq hkind ho hnew _ hfresh
  split at hrun
  · next x s' hr => rw [hr,hrun]
  · exact hrun.elim

theorem answered_threads (hword : 1 ≤ p.wordSize.toNat) (hwide : p.wordSize.toNat ≤ 8)
    {addresses : List UInt64} (ha : ∀ a ∈ addresses, a.toNat < Nat.pow 2 (8 * p.wordSize.toNat))
    (hlen : (ThreadList.ofAddresses addresses p.wordSize.toNat).data.length ≤ maxReassembled)
    (h : target.Replies p.receiveBufferSize.toNat (.threadList .request)
      (.threadList (.ofAddresses addresses p.wordSize.toNat))) :
    Answered target p .threads (.threadList (.ofAddresses addresses p.wordSize.toNat)) addresses := by
  refine ⟨fun n => ⟨_,rfl⟩,h,?_,?_,?_⟩
  · rintro _ ⟨⟩
    exact hlen
  · rintro state _ ⟨⟩
    rfl
  · intro state hknown
    have hw : state.wordSize = p.wordSize.toNat := by
      simp only [SessionState.wordSize,hknown]
      rw [if_neg]
      intro h0
      rw [h0] at hword
      exact absurd hword (by decide)
    have hfound : (ThreadList.ofAddresses addresses p.wordSize.toNat).addresses state.wordSize =
        .ok addresses := by
      rw [hw]
      exact ThreadList.addresses_ofAddresses hword hwide ha
    simp only [SessionState.receive,SessionState.onThreadList,hfound]
    exact (SessionState.lists_dropOutstanding { state with threads := some addresses } _).1

theorem answered_memory {text : Bytes} {map : MemoryMap} (hw : MemoryMap.Writes text map)
    (hlen : text.length ≤ maxReassembled)
    (h : target.Replies p.receiveBufferSize.toNat (.memList .request) (.memList ⟨text⟩)) :
    Answered target p .memory (.memList ⟨text⟩) map := by
  refine ⟨fun n => ⟨_,rfl⟩,h,?_,?_,?_⟩
  · rintro _ ⟨⟩
    exact hlen
  · rintro state _ ⟨⟩
    rfl
  · intro state hknown
    have hfound : MemoryList.spaces ⟨text⟩ = .ok map := MemoryMap.ofBytes_of_writes hw
    simp only [SessionState.receive,SessionState.onMemoryList,hfound]
    rfl

theorem answered_autorun {names : List String}
    (hnames : ∀ name ∈ names, name ≠ "" ∧ ',' ∉ name.toList ∧ '\x00' ∉ name.toList)
    (hlen : (AutorunList.ofNames names).data.length ≤ maxReassembled)
    (h : target.Replies p.receiveBufferSize.toNat (.autorunList .request)
      (.autorunList (.ofNames names))) :
    Answered target p .autorun (.autorunList (.ofNames names)) names := by
  refine ⟨fun n => ⟨_,rfl⟩,h,?_,?_,?_⟩
  · rintro _ ⟨⟩
    exact hlen
  · rintro state _ ⟨⟩
  · intro state hknown
    exact congrArg some (AutorunList.names_ofNames (fun name h => (hnames name h).1)
      (fun name h => (hnames name h).2.1) fun name h => (hnames name h).2.2)

/-- A session that was just opened reads from a target exactly what the target has: its threads, its
memory spaces and the modules it starts. -/
theorem read_lists {target : Target} {p : SyncParameters} {retries : Nat} (ht : target.IgnoresAcks)
    (hsync : target.Handshakes p) (hanswers : 2 ≤ target.answers)
    (hsize : 20 ≤ p.receiveBufferSize.toNat) (hword : 1 ≤ p.wordSize.toNat)
    (hwide : p.wordSize.toNat ≤ 8) (hretries : 1 ≤ retries) :
    let s := ofLink (.ofTarget target) retries
    let replies := target.Replies p.receiveBufferSize.toNat
    (∀ addresses : List UInt64, (∀ a ∈ addresses, a.toNat < Nat.pow 2 (8 * p.wordSize.toNat)) →
      let list := ThreadList.ofAddresses addresses p.wordSize.toNat
      list.data.length ≤ 65535 → replies (.threadList .request) (.threadList list) →
        (readThreadList.run s).1 = .ok addresses) ∧
    (∀ text map, MemoryMap.Writes text map → text.length ≤ 65535 →
      replies (.memList .request) (.memList ⟨text⟩) → (readMemoryMap.run s).1 = .ok map) ∧
    (∀ names : List String, (∀ name ∈ names, name ≠ "" ∧ ',' ∉ name.toList ∧ '\x00' ∉ name.toList) →
      let list := AutorunList.ofNames names
      list.data.length ≤ 65535 → replies (.autorunList .request) (.autorunList list) →
        (readAutorunList.run s).1 = .ok names) := by
  intro s replies
  have hread : ∀ {α : Type} {query : Query α} {reply : Message} {found : α},
      Answered target p query reply found → needsNoSync query.request.kind = false →
      (SessionState.initial.change query.forget).outstanding = none →
      (SessionState.initial.change query.forget).syncedOutgoing = false →
      ((read query).run s).1 = .ok found :=
    fun hq hkind ho hnew => read_eq_ok ht hsync hanswers hsize hretries hq hkind ho hnew
  refine ⟨?_,?_,?_⟩
  · intro addresses ha list hlen hreply
    exact hread (answered_threads hword hwide ha hlen hreply) rfl rfl rfl
  · intro text map htext hlen hreply
    exact hread (answered_memory htext hlen hreply) rfl rfl rfl
  · intro names hnames list hlen hreply
    exact hread (answered_autorun hnames hlen hreply) rfl rfl rfl

/-- The target tells its parameters, two threads, two memory spaces and two modules, in frames of at
most twenty data bytes and in chunks of seven bytes. -/
theorem read_lists_small :
    let p : SyncParameters := ⟨true,20,2,SyncParameters.padId [109]⟩
    let text := Utf8.encode "\x7b0:(\"ram\",4096,1),7:('rom',20,False),\x7d"
    let map := (MemoryMap.empty.insert 0 ⟨"ram",4096,true⟩).insert 7 ⟨"rom",20,false⟩
    let names := ["main","boot"]
    let messages : UInt8 → List Message := fun kind =>
      if kind = 3 then [.ack,.sync p]
      else if kind = 6 then [.threadList (.ofAddresses [258,65535] 2)]
      else if kind = 7 then [.memList ⟨text⟩]
      else [.autorunList (.ofNames names)]
    let target := Target.telling 20 messages 2
    let s := ofLink (.ofTarget target) 1
    target.IgnoresAcks ∧ target.Handshakes p ∧ 2 ≤ target.answers ∧
      (readThreadList.run s).1 = .ok [258,65535] ∧ MemoryMap.Writes text map ∧
      (readMemoryMap.run s).1 = .ok map ∧ (readAutorunList.run s).1 = .ok names := by
  intro p text map names messages target s
  have ht : target.IgnoresAcks := Target.ignoresAcks_telling _ _ _
  have htells : ∀ kind, kind ≠ Target.ackId →
      (∀ m ∈ messages kind, m.kind ≠ .invalid ∧ m.kind ≠ .defective) →
      ∀ earlier frame, frame.kind = kind → (target.react earlier frame).Tells 20 (messages kind) := by
    rintro _ hk hm earlier frame rfl
    exact Target.tells_telling hk hm earlier
  have hsync : target.Handshakes p := by
    intro earlier n reset frame hf
    refine .inl (htells 3 (by decide) (by decide) earlier frame ?_)
    cases reset <;> cases hf <;> rfl
  have hwrites : MemoryMap.Writes text map := by
    have hspaced : ∀ tokens, tokens.flatten = text → MemoryMap.Spaced tokens text := by
      intro tokens h
      rw [← h]
      exact .flatten tokens
    refine ⟨_,_,.refl _,.comma (.mk (.inl rfl) (by decide) (.number (n := 1) (by decide)))
      (.comma (.mk (.inr rfl) (by decide) .no) .close),hspaced _ ?_⟩
    decide +kernel
  have hretries : 1 ≤ 1 := by decide
  obtain ⟨hthreads,hmemory,hautorun⟩ := read_lists ht hsync (by decide) (by decide) (by decide)
    (by decide) hretries
  refine ⟨ht,hsync,by decide,?_,hwrites,?_,?_⟩
  · refine hthreads [258,65535] (by simp [p]) (by decide) ?_
    rintro earlier n _ ⟨⟩
    exact htells 6 (by decide) (by decide) earlier _ rfl
  · refine hmemory text map hwrites (by decide) ?_
    rintro earlier n _ ⟨⟩
    exact htells 7 (by decide) (by decide) earlier _ rfl
  · refine hautorun names (by decide) (by decide) ?_
    rintro earlier n _ ⟨⟩
    exact htells 9 (by decide) (by decide) earlier _ rfl

end Session

end RemotePyMite
