import RemotePyMite.Proofs.Session.History
import RemotePyMite.Proofs.Session.Sections

/-! # The transfer of a block

A session that sends a block in segments records each of them, sends it until the target has cleared it,
and records the next one only then, whatever the target does and wherever the call fails.  A message that
comes in between the record of a segment and its first sending can clear it too (`exists_transfer_late`).
-/
namespace RemotePyMite
open SessionState

/-- The block that is sent. -/
def Event.block? : Event SessionChange → Option Block
  | .sent frame => frame.block?
  | _ => none

/-- The session makes a block the outstanding message. -/
def Event.isBlockRecord : Event SessionChange → Bool
  | .changed (.record (.memAddBlock _)) => true
  | _ => false

/-- What a session that started in `start` has recorded of a row of blocks, one after another; whether the
last of them was sent, and whether a message of the target has cleared it. -/
inductive Transfer (start : SessionState) : List Block → (sent cleared : Bool) → History → Prop
  | start : Transfer start [] true true []
  | other {row : List Block} {sent cleared : Bool} {log : History} {event : Event SessionChange}
      (h : Transfer start row sent cleared log) (hb : event.block? = none) (hr : event.isBlockRecord = false)
      (hkept : cleared = true ∨ (replay start (event :: log)).outstanding = (replay start log).outstanding) :
      Transfer start row sent cleared (event :: log)
  /-- The one before was sent and cleared. -/
  | record {row : List Block} {log : History} {block : Block} (h : Transfer start row true true log) :
      Transfer start (row ++ [block]) false false (.changed (.record (.memAddBlock block)) :: log)
  | sent {row : List Block} {sent cleared : Bool} {log : History} {frame : Frame} {block : Block}
      (h : Transfer start (row ++ [block]) sent cleared log) (hf : frame.block? = some block) :
      Transfer start (row ++ [block]) true cleared (.sent frame :: log)
  | cleared {row : List Block} {sent : Bool} {log : History} {m : Message} {block : Block}
      (h : Transfer start (row ++ [block]) sent false log)
      (ho : (replay start log).outstanding = some (.memAddBlock block))
      (hc : (replay start (.received m :: log)).outstanding = none) :
      Transfer start (row ++ [block]) sent true (.received m :: log)

/-- Each of the blocks once or more, in their order. -/
inductive Repeated : List Block → List Block → Prop
  | nil : Repeated [] []
  | first {blocks row : List Block} (block : Block) (h : Repeated blocks row) :
      Repeated (blocks ++ [block]) (row ++ [block])
  | again {blocks row : List Block} {block : Block} (h : Repeated (blocks ++ [block]) row) :
      Repeated (blocks ++ [block]) (row ++ [block])

namespace Transfer
variable {start : SessionState} {row : List Block} {sent cleared : Bool} {log : History}

/-- So the blocks of all frames are these blocks, each perhaps more than once; the last of them is missing
if it was not sent. -/
theorem repeated (h : Transfer start row sent cleared log) :
    Repeated (if sent then row else row.dropLast) (log.reverse.filterMap Event.block?) := by
  induction h with
  | start => exact .nil
  | other h hb hr hkept ih => simpa [hb] using ih
  | record h ih => simpa [Event.block?,List.filterMap_cons] using ih
  | @sent row sent _ log frame block h hf ih =>
    have hframe : (Event.sent frame :: log).reverse.filterMap Event.block? =
        log.reverse.filterMap Event.block? ++ [block] := by
      simp [Event.block?,hf]
    rw [hframe]
    cases sent with
    | true => exact ih.again
    | false =>
      rw [if_neg (by simp),List.dropLast_concat] at ih
      exact ih.first block
  | cleared h ho hc ih => simpa [Event.block?,List.filterMap_cons] using ih

end Transfer

namespace Session
open RemotePyMite.Action

/-- These blocks were recorded, and the last of them is outstanding unless it was cleared. -/
structure Moves (start : SessionState) (row : List Block) (sent cleared : Bool) (events : History)
    (state : SessionState) : Prop where
  transfer : Transfer start row sent cleared events
  state_eq : state = replay start events
  waits : cleared = false → ∃ front block, row = front ++ [block] ∧
    state.outstanding = some (.memAddBlock block)
  done : cleared = true → ∀ block, state.outstanding ≠ some (.memAddBlock block)

/-- These blocks were recorded, and where `all` holds each of them was sent. -/
def Moving (start : SessionState) (all : Bool) (row : List Block) (events : History) (state : SessionState) :
    Prop :=
  ∃ sent cleared, (all = true → sent = true) ∧ Moves start row sent cleared events state

variable {start : SessionState} {row : List Block} {block : Block} {all : Bool}
  {events : History} {state : SessionState}

/-- If a block is outstanding, it is the last of the row. -/
theorem Moves.last {sent cleared : Bool} (h : Moves start row sent cleared events state)
    (ho : state.outstanding = some (.memAddBlock block)) : ∃ front, row = front ++ [block] := by
  cases cleared with
  | true => exact absurd ho (h.done rfl block)
  | false =>
    obtain ⟨front,last,hrow,hlast⟩ := h.waits rfl
    cases ho.symm.trans hlast
    exact ⟨front,hrow⟩

/-- A frame of the last block, or of a message that is no block. -/
theorem Moving.frame (h : Moving start all row events state) {m : Message} {n : UInt8} {frame : Frame}
    {event : Event SessionChange} (hf : m.frame n = .ok frame) (ht : event.Tries frame)
    (hm : ∀ block, m = .memAddBlock block → ∃ front, row = front ++ [block]) :
    Moving start all row (event :: events) state := by
  obtain ⟨sent,cleared,hall,h⟩ := h
  cases ht with
  | unsent => exact ⟨sent,cleared,hall,.other h.transfer rfl rfl (.inr rfl),h.state_eq,h.waits,h.done⟩
  | sent =>
    have hb := block?_frame hf
    cases m with
    | memAddBlock block =>
      obtain ⟨front,rfl⟩ := hm block rfl
      exact ⟨true,cleared,fun _ => rfl,.sent h.transfer hb,h.state_eq,h.waits,h.done⟩
    | _ => exact ⟨sent,cleared,hall,.other h.transfer hb rfl (.inr rfl),h.state_eq,h.waits,h.done⟩

theorem Moving.received (h : Moving start all row events state) (m : Message) :
    Moving start all row (.received m :: events) (state.receive m).state := by
  obtain ⟨sent,cleared,hall,h⟩ := h
  have hstate : (state.receive m).state = replay start (.received m :: events) := by
    rw [h.state_eq]
    rfl
  rcases state.outstanding_receive m with hr | hr
  · have hdone : ∀ block, (state.receive m).state.outstanding ≠ some (.memAddBlock block) := by
      simp [hr]
    cases cleared with
    | true =>
      exact ⟨sent,true,hall,.other h.transfer rfl rfl (.inl rfl),hstate,by simp,fun _ => hdone⟩
    | false =>
      obtain ⟨front,block,rfl,ho⟩ := h.waits rfl
      refine ⟨sent,true,hall,?_,hstate,by simp,fun _ => hdone⟩
      exact .cleared h.transfer (h.state_eq ▸ ho) (hstate ▸ hr)
  · refine ⟨sent,cleared,hall,.other h.transfer rfl rfl (.inr ?_),hstate,hr ▸ h.waits,hr ▸ h.done⟩
    rw [← hstate,← h.state_eq]
    exact hr

theorem keeps_moving (start : SessionState) (all : Bool) (row : List Block) :
    SessionState.receiver.Keeps (Moving start all row) where
  received := fun m h => h.received m
  replied := by
    intro events state m reply n frame event h hreply hf ht
    refine (h.received m).frame hf ht ?_
    rintro block rfl
    rcases SessionState.reply_receive hreply with hack | ⟨ho,-⟩
    · cases hack
    · obtain ⟨sent,cleared,-,h⟩ := h
      exact h.last ho
  broke := by
    rintro events state reason ⟨sent,cleared,hall,h⟩
    exact ⟨sent,cleared,hall,.other h.transfer rfl rfl (.inr rfl),h.state_eq,h.waits,h.done⟩

variable {base : History}

/-- A call that fails has recorded some of the blocks. -/
def FailsMoving (start : SessionState) (base : History) (segments : List Block) (_ : SessionError)
    (s : Session) : Prop :=
  ∃ row, row <+: segments ∧ s.Since base (Moving start false row)

/-- These blocks were recorded and sent, and nothing is outstanding. -/
def Moved (start : SessionState) (row : List Block) (events : History) (state : SessionState) : Prop :=
  Moving start true row events state ∧ state.outstanding = none

theorem Moved.moves (h : Moved start row events state) : Moves start row true true events state := by
  obtain ⟨⟨sent,cleared,hall,h⟩,ho⟩ := h
  cases hall rfl
  cases cleared with
  | true => exact h
  | false =>
    obtain ⟨front,block,-,hb⟩ := h.waits rfl
    cases ho.symm.trans hb

theorem stable_moving : Stable (Session.Since base (Moving start all row)) :=
  stable_since (keeps_moving start all row)

theorem stable_moved : Stable (Session.Since base (Moved start row)) :=
  stable_meets (fun _ _ _ _ => trivial) (keeps_moving start true row).upholds.free

/-- What the host changes leaves the row as it is, if it records no block and takes none away. -/
theorem moving_update {change : SessionChange} {E : SessionError → Session → Prop}
    (hr : Event.isBlockRecord (.changed change) = false)
    (ho : ∀ state : SessionState, (state.change change).outstanding = state.outstanding ∨
      ∀ block, state.outstanding ≠ some (.memAddBlock block) ∧
        (state.change change).outstanding ≠ some (.memAddBlock block)) :
    Triple (Session.Since base (Moving start all row)) (update change)
      (fun _ => Session.Since base (Moving start all row)) E := by
  refine Triple.update ?_
  rintro - events state ⟨sent,cleared,hall,h⟩
  have hstate : state.change change = replay start (.changed change :: events) := by
    rw [h.state_eq]
    rfl
  rcases ho state with hsame | hnone
  · refine ⟨sent,cleared,hall,.other h.transfer rfl hr (.inr ?_),hstate,hsame ▸ h.waits,hsame ▸ h.done⟩
    rw [← hstate,← h.state_eq]
    exact hsame
  · cases cleared with
    | true =>
      exact ⟨sent,true,hall,.other h.transfer rfl hr (.inl rfl),hstate,by simp,fun _ block => (hnone block).2⟩
    | false =>
      obtain ⟨front,block,-,hb⟩ := h.waits rfl
      exact absurd hb (hnone block).1

section
variable {segments : List Block} (hp : row <+: segments)

include hp

theorem moving_fails {s : Session} {I : Bool → History → SessionState → Prop}
    (h : s.Meets (fun _ _ => True) base I)
    (hI : ∀ connected events state, I connected events state → Moving start all row events state)
    (e : SessionError) : FailsMoving start base segments e s := by
  refine ⟨row,hp,h.since fun connected events state hs => ?_⟩
  obtain ⟨sent,cleared,-,hmoves⟩ := hI connected events state hs
  exact ⟨sent,cleared,nofun,hmoves⟩

theorem moving_transmit {m : Message}
    (hm : ∀ block, m = .memAddBlock block → ∃ front, row = front ++ [block]) :
    Triple (Session.Since base (Moving start all row)) (discard <| transmit m)
      (fun _ => Session.Since base (Moving start all row)) (FailsMoving start base segments) := by
  have hkeeps := (keeps_moving start all row).upholds
  refine Triple.transmit hkeeps hkeeps (fun h hf ht => h.frame hf ht hm) fun e s _ hs => ?_
  exact moving_fails hp hs (fun _ _ _ h => h.elim id id) e

theorem moving_waitOutstanding :
    Triple (Session.Since base (Moving start true row)) waitOutstanding
      (fun _ => Session.Since base (Moved start row)) (FailsMoving start base segments) := by
  let looked (m : Message) (s : Session) : Prop :=
    (∀ block, m = .memAddBlock block → ∃ front, row = front ++ [block]) ∧ s.Since base (Moving start true row)
  refine (Triple.waitOutstanding (A := looked) stable_moving
    (fun m => (stable_const _).and stable_moving) (fun e s hs _ => moving_fails hp hs (fun _ _ _ h => h) e)
    ?_ fun m => ?_).post fun _ s hs => hs.1.and (χ := (·.outstanding = none)) hs.2
  · rintro m s hs ho
    refine ⟨?_,hs⟩
    rintro block rfl
    obtain ⟨-,events,-,sent,cleared,-,h⟩ := hs
    exact h.last ho
  · refine Triple.assume (fun _ hs => hs.1) fun hm => ?_
    exact (moving_transmit hp hm).pre fun _ hs => hs.2

theorem moving_synchronize :
    Triple (Session.Since base (Moving start true row)) (do Action.hear; synchronize)
      (fun _ => Session.Since base (Moving start true row)) (FailsMoving start base segments) := by
  have hgive : Triple (Session.Since base (Moving start true row)) (update (.giveUp .sync))
      (fun _ => Session.Since base (Moving start true row)) (FailsMoving start base segments) := by
    refine moving_update rfl fun state => ?_
    by_cases hk : state.outstandingKind = some .sync
    · -- What is taken back are parameters of the host, and no block.
      obtain ⟨p,ho⟩ := outstandingKind_eq_sync_iff.mp hk
      refine .inr fun block => ⟨by simp [ho],?_⟩
      simp [SessionState.change,dropOutstanding,hk]
    · exact .inl (by simp [SessionState.change,dropOutstanding,hk])
  have hrecord (reset : Bool) : Triple (Session.Since base (Moved start row))
      (update (.record (.sync (.host reset)))) (fun _ => Session.Since base (Moving start true row))
      (FailsMoving start base segments) := by
    refine Triple.update fun _ events state h => ?_
    have hmoves := h.moves
    refine ⟨true,true,fun _ => rfl,.other hmoves.transfer rfl rfl (.inl rfl),?_,by simp,?_⟩
    · rw [hmoves.state_eq]
      rfl
    · rintro - block ⟨⟩
  have hattempts := Triple.attemptSync (P := fun _ => Session.Since base (Moving start true row))
    (fun _ _ hs => hs) (fun _ => stable_moving) (fun _ => stable_moving) (fun _ => stable_moved)
    (fun _ _ => stable_moving) (fun _ e _ hs => moving_fails hp hs (fun _ _ _ h => h) e) (fun _ => hgive)
    (fun _ => moving_waitOutstanding hp) (fun _ => hrecord) (fun _ _ => moving_transmit hp (by simp)) true
  have hbegin : Triple (Session.Since base (Moving start true row)) (update .beginHandshake)
      (fun _ => Session.Since base (Moving start true row)) (FailsMoving start base segments) :=
    moving_update rfl fun _ => .inl rfl
  refine (Triple.hear stable_moving).bind fun _ => hbegin.step stable_moving ?_
  exact (Triple.tries hattempts).post fun _ _ hs => hs.1

end

/-- The next block is recorded and sent behind the ones before it. -/
theorem moving_post {segments : List Block} (hp : row ++ [block] <+: segments) :
    Triple (Session.Since base (Moved start row)) (post (.memAddBlock block))
      (fun _ => Session.Since base (Moving start true (row ++ [block]))) (FailsMoving start base segments) := by
  refine Triple.postMessage (R := Session.Since base (Moving start false (row ++ [block]))) stable_moving
    (fun _ => ?_) (fun _ => ?_) (by simp [isTracked,Message.kind])
  -- From here on the block may be cleared before it is sent, so the two are noted apart.
  · refine Triple.update fun _ events state h => ?_
    have hmoves := h.moves
    refine ⟨false,false,by simp,.record hmoves.transfer,?_,fun _ => ⟨row,block,rfl,rfl⟩,by simp⟩
    rw [hmoves.state_eq]
    rfl
  · have hlast : ∀ other, Message.memAddBlock block = .memAddBlock other →
        ∃ front, row ++ [block] = front ++ [other] := by
      rintro _ ⟨⟩
      exact ⟨row,rfl⟩
    refine Triple.transmitOr (K := fun _ => Moving start false (row ++ [block]))
      (keeps_moving _ _ _).upholds (keeps_moving _ _ _).upholds ?_ (fun h hf => h.frame hf .unsent hlast)
      (fun h _ => h) fun e s _ hs => moving_fails hp hs (fun _ _ _ h => h) e
    rintro events state n frame ⟨sent,cleared,-,h⟩ hf
    exact ⟨true,cleared,fun _ => rfl,.sent h.transfer (block?_frame hf),h.state_eq,h.waits,h.done⟩

theorem moving_sendSegments {segments : List Block} :
    Triple (Session.Since base (Moving start true [])) (sendSegments segments)
      (fun _ => Session.Since base (Moving start true segments)) (FailsMoving start base segments) := by
  have hall := Triple.sendSegments (E := FailsMoving start base segments)
    (P := fun rest s => ∃ row, row ++ rest = segments ∧ s.Since base (Moving start true row)) ?_ segments
  · refine hall.mono (fun s hs => ⟨[],rfl,hs⟩) ?_
    rintro _ s ⟨row,rfl,hs⟩
    rwa [List.append_nil]
  · refine fun segment rest => Triple.ofExists fun row =>
      Triple.assume (φ := row ++ segment :: rest = segments) (fun _ hs => hs.1) fun hrow => ?_
    rw [List.append_cons] at hrow
    have hp : row ++ [segment] <+: segments := ⟨rest,hrow⟩
    have hp' : row <+: segments := (List.prefix_append row [segment]).trans hp
    have hsend : Triple (Session.Since base (Moving start true row)) (send (.memAddBlock segment))
        (fun _ => Session.Since base (Moving start true (row ++ [segment])))
        (FailsMoving start base segments) :=
      Triple.send stable_moving stable_moved (fun _ hs _ => hs)
        (fun _ => (moving_synchronize hp').pre fun _ hs => hs.1) (moving_waitOutstanding hp') (moving_post hp)
    refine ((Triple.hear stable_moving).bind fun _ => hsend).mono (fun _ hs => hs.2) fun _ s hs => ?_
    exact ⟨row ++ [segment],hrow,hs⟩

/-- Whatever the target does and whenever it is heard, a call that adds a block records a front part of its
segments, each of them only when the one before was sent and then cleared by a message that came in after it
was recorded.  So it sends each of these once or more and in order, the last of them perhaps excepted; if
the call succeeds, all were sent and cleared.  A block that cannot be cut is an error, and then nothing else
happens. -/
theorem exists_transfer {s : Session} (hfree : s.state.outstanding = none) (space : UInt8)
    (data : Bytes) :
    match Block.segments space data s.outgoingSegmentSize with
    | .error e => (addBlock space data).run s = (.error (.message e),s)
    | .ok segments => ∃ (log : History) (k : Nat) (sent cleared : Bool),
        ((addBlock space data).run s).2.channel.log = log ++ s.channel.log ∧ k ≤ segments.length ∧
        Transfer s.state (segments.take k) sent cleared log ∧
        Repeated (segments.take (if sent then k else k - 1)) (log.reverse.filterMap Event.block?) ∧
        (((addBlock space data).run s).1 = .ok () → k = segments.length ∧ sent = true ∧ cleared = true) := by
  cases hseg : Block.segments space data s.outgoingSegmentSize with
  | error e =>
    dsimp only
    rw [run_addBlock,hseg]
    rfl
  | ok segments =>
    have hstart : s.Since s.channel.log (Moving s.state true []) := by
      refine ⟨trivial,[],rfl,true,true,fun _ => rfl,.start,rfl,by simp,fun _ block ho => ?_⟩
      cases hfree.symm.trans ho
    have hall : Triple _ (addBlock space data) _ _ := Triple.addBlock
      (P := fun x s' => x = .ok segments ∧ s'.Since s.channel.log (Moving s.state true []))
      (R := fun row s' => row = segments ∧ s'.Since s.channel.log (Moving s.state true row))
      (fun _ => (stable_const _).and stable_moving)
      (fun row => Triple.assume (φ := row = segments) (fun _ hs => Except.ok.inj hs.1) ?_)
      (fun row => Triple.assume (φ := row = segments) (fun _ hs => hs.1) ?_)
      (E := FailsMoving s.state s.channel.log segments) (fun _ _ hs => by cases hs.1)
      (Q := fun _ => Session.Since s.channel.log (Moved s.state segments))
    · have hrow {row : List Block} {sent cleared : Bool} {log : History}
          (h : Transfer s.state row sent cleared log) (hp : row <+: segments) :
          Transfer s.state (segments.take row.length) sent cleared log ∧
            Repeated (segments.take (if sent then row.length else row.length - 1))
              (log.reverse.filterMap Event.block?) := by
        rw [← List.prefix_iff_eq_take.mp hp]
        refine ⟨h,?_⟩
        have hr := h.repeated
        cases sent with
        | true =>
          rw [if_pos rfl,← List.prefix_iff_eq_take.mp hp]
          exact hr
        | false =>
          rw [if_neg (by simp),List.dropLast_eq_take] at hr
          rw [if_neg (by simp)]
          rwa [List.prefix_iff_eq_take.mp ((List.take_prefix _ row).trans hp),List.length_take,
            Nat.min_eq_left (Nat.sub_le _ _)] at hr
      have hrun := hall s ⟨hseg,hstart⟩
      split at hrun
      · next s' heq =>
        obtain ⟨-,log,hl,h⟩ := hrun
        dsimp only
        rw [heq]
        obtain ⟨htransfer,hrepeated⟩ := hrow h.moves.transfer List.prefix_rfl
        exact ⟨log,segments.length,true,true,hl,Nat.le_refl _,htransfer,hrepeated,fun _ => ⟨rfl,rfl,rfl⟩⟩
      · next e s' heq =>
        obtain ⟨row,hp,-,log,hl,sent,cleared,-,h⟩ := hrun
        dsimp only
        rw [heq]
        obtain ⟨htransfer,hrepeated⟩ := hrow h.transfer hp
        exact ⟨log,row.length,sent,cleared,hl,hp.length_le,htransfer,hrepeated,nofun⟩
    · rintro rfl
      exact moving_sendSegments.mono (fun _ hs => hs.2) fun _ _ hs => ⟨rfl,hs⟩
    · rintro rfl
      exact (moving_waitOutstanding List.prefix_rfl).pre fun _ hs => hs.2

/-- A target that says nothing to the first segment and refuses the second once. -/
theorem exists_transfer_refused :
    let ack := (Frame.mk 0 1 []).bytes
    let nack := (Frame.mk 0 2 []).bytes
    let parameters : SyncParameters := ⟨false,20,4,SyncParameters.padId [109]⟩
    let target := Target.scripted [⟨[ack ++ (Frame.mk 0 3 parameters.toBytes).bytes],false⟩,.silent,
      ⟨[ack],false⟩,⟨[nack],false⟩,⟨[ack],false⟩]
    let s := (synchronize.run (ofLink (.ofTarget target) 2)).2
    let data : Bytes := List.replicate 20 97
    let segments : List Block :=
      [⟨[20,0,3] ++ List.replicate 11 97⟩,⟨List.replicate 9 97⟩]
    s.state.outstanding = none ∧ Block.segments 3 data s.outgoingSegmentSize = .ok segments ∧
      ∃ log, ((addBlock 3 data).run s).2.channel.log = log ++ s.channel.log ∧
        Transfer s.state segments true true log ∧
        Repeated segments (log.reverse.filterMap Event.block?) := by
  intro ack nack parameters target s data segments
  have hfree : s.state.outstanding = none := by decide +kernel
  have hsize : s.outgoingSegmentSize = 14 := by decide +kernel
  have hseg : Block.segments 3 data s.outgoingSegmentSize = .ok segments := by
    rw [hsize]
    simp [Block.segments,Block.tail,maxBlockLength,Bytes.pieces,Word.littleEndian,data,segments]
  have hdone : ((addBlock 3 data).run s).1.toBool = true := by decide +kernel
  have h := exists_transfer hfree 3 data
  rw [hseg] at h
  obtain ⟨log,k,sent,cleared,hl,-,htransfer,hrepeated,hok⟩ := h
  have hresult : ((addBlock 3 data).run s).1 = .ok () := by
    cases hr : ((addBlock 3 data).run s).1 with
    | error e =>
      rw [hr] at hdone
      cases hdone
    | ok x => rfl
  obtain ⟨rfl,rfl,rfl⟩ := hok hresult
  rw [List.take_length] at htransfer
  rw [if_pos rfl,List.take_length] at hrepeated
  exact ⟨hfree,hseg,log,hl,htransfer,hrepeated⟩

/-- A second acknowledgment of something earlier comes in when the first segment is recorded and not yet sent,
and clears it.  The target says nothing when it is sent, and yet the second segment follows at once. -/
theorem exists_transfer_late :
    let ack := (Frame.mk 0 1 []).bytes
    let parameters : SyncParameters := ⟨false,20,4,SyncParameters.padId [109]⟩
    let target := Target.scripted [⟨[ack ++ (Frame.mk 0 3 parameters.toBytes).bytes],false⟩,.silent,
      ⟨[ack],false⟩]
    let s : Session :=
      { (synchronize.run (ofLink (.ofTarget target) 2)).2 with meanwhile := [[],[],[],[.chunk ack]] }
    let data : Bytes := List.replicate 20 97
    let first : Block := ⟨[20,0,3] ++ List.replicate 11 97⟩
    let second : Block := ⟨List.replicate 9 97⟩
    let run := (addBlock 3 data).run s
    s.state.outstanding = none ∧ Block.segments 3 data s.outgoingSegmentSize = .ok [first,second] ∧
      run.1.toBool = true ∧
      run.2.channel.log = [.received .ack,.sent ⟨3,8,second.data⟩,.changed (.record (.memAddBlock second)),
        .sent ⟨2,8,first.data⟩,.received .ack,.changed (.record (.memAddBlock first))] ++ s.channel.log := by
  intro ack parameters target s data first second run
  have hsize : s.outgoingSegmentSize = 14 := by decide +kernel
  refine ⟨by decide +kernel,?_,by decide +kernel,by decide +kernel⟩
  rw [hsize]
  simp [Block.segments,Block.tail,maxBlockLength,Bytes.pieces,Word.littleEndian,data,first,second]

end Session

end RemotePyMite
