import RemotePyMite.Proofs.Session.AddBlock
import RemotePyMite.Proofs.Session.Steady

/-! # Messages that no frame can hold

A message is recorded as outstanding before it turns out that no frame can hold it, and stays so.
Nothing that is sent later gets past it, unless the target clears it unasked.  Only a kind that is not
waited for leaves the session as it was (`send_unsendable`).
-/
namespace RemotePyMite

/-- The message has no wire form, or more data than a frame can hold. -/
def Message.Frameless (m : Message) : Prop :=
  m.kind = .invalid ∨ m.kind = .defective ∨ ∃ data, m.toBytes = .ok data ∧ 255 < data.length

theorem Message.frame_of_long {m : Message} {id : UInt8} {data : Bytes} (hw : m.wireId = .ok id)
    (hb : m.toBytes = .ok data) (hl : 255 < data.length) (n : UInt8) :
    m.frame n = .error (.dataTooLong data.length 255) := by
  simp only [frame,hw,hb]
  exact if_neg (Nat.not_le.mpr hl)

theorem Message.Frameless.exists_error {m : Message} (h : m.Frameless) :
    ∃ e, ∀ n, m.frame n = .error e := by
  have hnone (hw : ∃ e, m.wireId = .error e) : ∃ e, ∀ n, m.frame n = .error e := by
    obtain ⟨e,hw⟩ := hw
    refine ⟨.message e,fun n => ?_⟩
    rw [frame,hw]
  rcases h with hk | hk | ⟨data,hb,hl⟩
  · exact hnone ⟨_,by rw [wireId,hk]; rfl⟩
  · exact hnone ⟨_,by rw [wireId,hk]; rfl⟩
  · cases hw : m.wireId with
    | error e => exact hnone ⟨e,hw⟩
    | ok id => exact ⟨_,frame_of_long hw hb hl⟩

/-- Of the messages that no frame can hold, those of one kind are not waited for. -/
theorem Message.Frameless.isTracked {m : Message} (h : m.Frameless) :
    Session.isTracked m.kind = true ↔ m.kind ≠ .threadList := by
  have hshort : m.kind ≠ .ack ∧ m.kind ≠ .nack := by
    cases m with
    | ack => simp [Frameless,kind,toBytes] at h
    | nack => simp [Frameless,kind,toBytes] at h
    | _ => simp [kind]
  simp [Session.isTracked,hshort]

theorem Message.Frameless.needsNoSync {m : Message} (h : m.Frameless) :
    Session.needsNoSync m.kind = false := by
  cases m with
  | ack => simp [Frameless,kind,toBytes] at h
  | sync p => simp [Frameless,kind,toBytes,SyncParameters.toBytes] at h
  | _ => rfl

/-- A message that no frame can hold changes nothing about a channel. -/
theorem Channel.transmit_of_error {σ ν : Type} (c : Channel σ ν) {m : Message} {e : FrameError}
    (h : ∀ n, m.frame n = .error e) :
    ∃ e', c.transmit m = (.error e',c) ∧ (e' = .frame e ↔ c.isConnected = true) := by
  unfold transmit isConnected
  cases c.failure with
  | some reason => exact ⟨_,rfl,by simp⟩
  | none =>
    cases hp : c.phase.isOpen with
    | true => exact ⟨.frame e,by simp [h],by simp⟩
    | false => exact ⟨.notConnected,by simp,by simp⟩

section

variable {α β : Type} {s : Session} {Q : β → Session → Prop} {E : SessionError → Session → Prop}

theorem Action.Triple.bindGet {f : Session → Action β} (h : Triple (· = s) (f s) Q E) :
    Triple (· = s) (MonadState.get >>= f) Q E := by
  rintro _ rfl
  exact h _ rfl

theorem Action.Triple.bindState {f : SessionState → Action β} (h : Triple (· = s) (f s.state) Q E) :
    Triple (· = s) (Action.state >>= f) Q E := by
  rintro _ rfl
  exact h _ rfl

theorem Action.Triple.run_eq_error {action : Action α} {s' : Session} {e : SessionError}
    (h : Triple (· = s) action (fun _ _ => False) (fun e' t => e' = e ∧ t = s')) :
    action.run s = (.error e,s') := by
  have hr := h s rfl
  split at hr
  · exact hr.elim
  · next heq => rw [heq,hr.1,hr.2]

end

namespace Session
open SessionState RemotePyMite.Action

/-- The session once nothing is on its way. -/
def settled (s : Session) : Session :=
  { s with channel := s.channel.settle receiver }

/-- The session in which a message is sent for the first time: one of a kind that is waited for has been
recorded before. -/
def tracking (s : Session) (m : Message) : Session :=
  if isTracked m.kind then Session.hear { s with channel := s.channel.change receiver (.record m) } else s

variable {s : Session} {m : Message}

theorem settled_of_inbox (h : s.channel.link.inbox = []) : s.settled = s := by
  rw [settled,Channel.settle,if_pos (by rw [h]; rfl)]

/-- What arrives is no change that the host makes. -/
theorem keeps_unchanged : receiver.Keeps fun events _ => ∀ change, .changed change ∉ events where
  received := fun m h => by simpa using h
  replied := fun m _ _ _ _ h _ _ ht => by cases ht <;> simpa using h
  broke := fun reason h => by simpa using h

theorem since_unchanged (s : Session) :
    s.Since s.channel.log fun events _ => ∀ change, .changed change ∉ events :=
  ⟨trivial,[],rfl,by simp⟩

theorem exists_log_settled {s : Session} {base : History}
    (h : s.Since base fun events _ => ∀ change, .changed change ∉ events) :
    ∃ events, s.settled.channel.log = events ++ base ∧ ∀ change, .changed change ∉ events :=
  (Session.Meets.settle h keeps_unchanged.upholds).2

theorem settled_tracking_ne (hm : isTracked m.kind = true) : (s.tracking m).settled ≠ s.settled := by
  intro h
  let recorded : Session := { s with channel := s.channel.change receiver (.record m) }
  have htracking : s.tracking m = recorded.hear := if_pos hm
  obtain ⟨events,hl,-⟩ := exists_log_settled (stable_since keeps_unchanged _ (since_unchanged recorded))
  obtain ⟨events',hl',hnone⟩ := exists_log_settled (since_unchanged s)
  rw [← htracking,h,hl'] at hl
  have hsplit : events' = events ++ [.changed (.record m)] := by
    refine (List.append_left_inj s.channel.log).mp ?_
    rw [hl,List.append_assoc]
    rfl
  exact hnone (.record m) (hsplit ▸ by simp)

theorem outstanding_hear (h : s.state.outstanding = none) : s.hear.state.outstanding = none := by
  have hs : s.Since s.channel.log Free := ⟨trivial,[],rfl,h⟩
  obtain ⟨-,_,-,ho⟩ := stable_since steady_free.keeps s hs
  exact ho

theorem triple_hear {E : SessionError → Session → Prop} :
    Triple (· = s) Action.hear (fun _ => (· = s.hear)) E := by
  rintro _ rfl
  rfl

theorem triple_transmit_error {e : SessionError}
    (h : s.channel.transmit m = (.error e,s.channel)) :
    Triple (· = s) (discard <| transmit m) (fun _ _ => False)
      (fun e' s' => e' = e ∧ s' = s.settled) := by
  suffices hsend : Triple (· = s) (transmit m) (fun _ _ => False) (fun e' s' => e' = e ∧ s' = s.settled) from
    hsend.bind fun _ => Triple.pure fun _ hs => hs
  refine Triple.bindGet ?_
  unfold Channel.exchange
  rw [h]
  exact (Triple.set (Q := fun _ s' => s' = s.settled) rfl).bind fun _ => Triple.throw fun _ hs => ⟨rfl,hs⟩

theorem triple_post_error {e : SessionError}
    (h : (s.tracking m).channel.transmit m = (.error e,(s.tracking m).channel)) :
    Triple (· = s) (post m) (fun _ _ => False) (fun e' s' => e' = e ∧ s' = (s.tracking m).settled) := by
  have hsend := triple_transmit_error h
  unfold post
  cases hm : isTracked m.kind with
  | true =>
    have hrecord : Triple (· = s) (do update (.record m); Action.hear) (fun _ s' => s' = s.tracking m)
        (fun e' s' => e' = e ∧ s' = (s.tracking m).settled) := by
      rintro _ rfl
      rw [tracking,if_pos hm]
      rfl
    exact hrecord.bind fun _ => hsend
  | false => exact hsend.pre fun s' hs => hs.trans (by rw [tracking,hm]; rfl)

/-- Where the handshake is done and nothing is outstanding, a message that needs the handshake is sent at
once. -/
theorem run_send_error (hneeds : needsNoSync m.kind = false) (hs : s.state.syncedOutgoing = true)
    (hfree : s.state.outstanding = none) {e : SessionError}
    (h : (s.hear.hear.tracking m).channel.transmit m = (.error e,(s.hear.hear.tracking m).channel)) :
    (send m).run s = (.error e,(s.hear.hear.tracking m).settled) := by
  have hensure : Triple (· = s) (ensureSync m.kind) (fun _ => (· = s.hear))
      (fun e' s' => e' = e ∧ s' = (s.hear.hear.tracking m).settled) := by
    unfold ensureSync
    rw [hneeds]
    refine Triple.bindState ?_
    rw [hs]
    exact triple_hear
  have hnothing : Triple (· = s.hear) waitOutstanding (fun _ => (· = s.hear))
      (fun e' s' => e' = e ∧ s' = (s.hear.hear.tracking m).settled) :=
    Triple.waitNothing fun s' hs' => hs' ▸ outstanding_hear hfree
  exact (hensure.bind fun _ => hnothing.bind fun _ => triple_hear.bind fun _ =>
    triple_post_error h).run_eq_error

/-- How a session gives up that waits for a message no frame can hold: where it may try more than once
it fails to send the message again. -/
def stuckError (s : Session) (m : Message) (e : FrameError) : SessionError :=
  if s.retries ≤ 1 then .timeout .send s.retries (some m.text) else .frame e

section stuck

variable {e : FrameError} (ho : s.state.outstanding = some m)
  (hc : s.channel.isConnected = true) (hi : s.channel.link.inbox = []) (hq : s.meanwhile = [])
  (he : ∀ n, m.frame n = .error e)

include ho hc hi hq he

theorem triple_attempt_stuck (resends : Bool) (attempts : Nat) :
    Triple (· = s) (attemptOutstanding resends attempts) (fun _ _ => False)
      (fun e' s' => (e' = if attempts ≤ (if resends then 0 else 1) then
        .timeout .send s.retries (some m.text) else .frame e) ∧ s' = s) := by
  have hfailure : s.channel.failure = none := by
    have h := hc
    simp only [Channel.isConnected,Bool.and_eq_true,Option.isNone_iff_eq_none] at h
    exact h.2
  have hhear {E : SessionError → Session → Prop} : Triple (· = s) Action.hear (fun _ => (· = s)) E :=
    Triple.hear (stable_quiet fun _ hs => hs ▸ hq)
  induction attempts generalizing resends with
  | zero =>
    refine Triple.bindState ?_
    rw [outstandingText,ho]
    exact Triple.bindGet (Triple.throw fun _ hs => ⟨by simp,hs⟩)
  | succ attempts ih =>
    refine Triple.bindState ?_
    rw [ho]
    cases resends with
    | true =>
      obtain ⟨e',ht,hframe⟩ := s.channel.transmit_of_error he
      have hsend : Triple (· = s) (discard <| transmit m) (fun _ _ => False)
          (fun e' s' => e' = .frame e ∧ s' = s) :=
        (triple_transmit_error ht).error fun _ _ h =>
          ⟨h.1.trans (hframe.mpr hc),h.2.trans (settled_of_inbox hi)⟩
      refine (hhear.bind fun _ => hsend.bind fun _ _ hs => hs.elim).error ?_
      simp
    | false =>
      have hwait : Triple (· = s) (awaitState fun state => state.outstanding.isNone)
          (fun found s' => s' = s ∧ found = s'.state.outstanding.isNone)
          (fun e' s' => (e' = if attempts + 1 ≤ 1 then
            .timeout .send s.retries (some m.text) else .frame e) ∧ s' = s) :=
        Triple.awaitState fun reason s' hs _ hf => by cases (hs ▸ hfailure).symm.trans hf
      refine hhear.bind fun _ => hwait.bind fun done => Triple.assume (φ := done = false) ?_ ?_
      · rintro _ ⟨rfl,rfl⟩
        rw [ho]
        rfl
      · rintro rfl
        refine (Triple.pre (hhear.bind fun _ => ih true) fun _ hs => hs.1).error ?_
        simp

theorem run_send_stuck (hs : s.state.syncedOutgoing = true) (other : Message) :
    (send other).run s = (.error (stuckError s m e),s) := by
  have hwait : Triple (· = s) waitOutstanding (fun _ _ => False)
      (fun e' s' => e' = stuckError s m e ∧ s' = s) :=
    Triple.bindGet (triple_attempt_stuck ho hc hi hq he false s.retries)
  refine (Triple.send (R := (· = s)) (stable_quiet fun _ hs => hs ▸ hq) (fun _ => False.elim) (fun _ hs _ => hs)
    (Triple.synced ?_) hwait fun _ hs => hs.elim).run_eq_error
  rintro _ rfl
  exact .inr hs

end stuck

/-- A session that waits for nothing is asked to send a message that no frame can hold.  Where it is still
connected then, the call fails with the error of the encoding.  The session stays as it would be without the
call exactly if the message is a list of threads.  Every other message stays outstanding; if nothing comes in,
nothing is sent, and as long as the target is silent nothing can be sent any more. -/
theorem send_unsendable (hs : s.state.isSynchronized = true) (hfree : s.state.outstanding = none)
    (hm : m.Frameless) :
    ∃ e, (∀ n, m.frame n = .error e) ∧
      let run := (send m).run s
      let now := s.hear.hear
      (run = (.error (.frame e),now.settled) ↔ now.channel.isConnected = true ∧ m.kind = .threadList) ∧
      ((now.tracking m).channel.isConnected = true → run.1 = .error (.frame e)) ∧
      (s.meanwhile = [] → now = s ∧
        (now.tracking m).channel.isConnected = s.channel.isConnected ∧
        (s.channel.link.inbox = [] → s.settled = s ∧
          Channel.sent run.2.channel.log = Channel.sent s.channel.log ∧
          (s.channel.isConnected = true → m.kind ≠ .threadList →
            run.2.state = { s.state with outstanding := some m } ∧
            ∀ other, (send other).run run.2 = (.error (stuckError s m e),run.2)))) := by
  obtain ⟨e,he⟩ := hm.exists_error
  obtain ⟨e',ht,hframe⟩ := (s.hear.hear.tracking m).channel.transmit_of_error he
  have hsynced : s.state.syncedOutgoing = true := (Bool.and_eq_true _ _ ▸ hs).2
  refine ⟨e,he,?_⟩
  rw [run_send_error hm.needsNoSync hsynced hfree ht]
  refine ⟨?_,fun hc => by rw [hframe.mpr hc],fun hq => ?_⟩
  · rw [Prod.mk.injEq,Except.error.injEq,hframe]
    cases htracked : isTracked m.kind with
    | true =>
      exact iff_of_false (fun h => settled_tracking_ne htracked h.2) fun h =>
        hm.isTracked.mp htracked h.2
    | false =>
      have hkind : ¬m.kind ≠ .threadList := fun hne => by
        cases htracked.symm.trans (hm.isTracked.mpr hne)
      have hsame : s.hear.hear.tracking m = s.hear.hear := by
        rw [tracking,htracked]
        rfl
      rw [hsame]
      exact and_congr_right fun _ => iff_of_true rfl (Decidable.not_not.mp hkind)
  · have hnow : s.hear.hear = s := by rw [hear_of_quiet (s := s) hq,hear_of_quiet hq]
    have htracking : s.tracking m =
        if isTracked m.kind then { s with channel := s.channel.change receiver (.record m) } else s := by
      rw [tracking]
      split
      · exact hear_of_quiet hq
      · rfl
    rw [hnow]
    refine ⟨rfl,by rw [htracking]; split <;> rfl,fun hi => ?_⟩
    have hempty : (s.tracking m).channel.link.inbox = [] := by rw [htracking]; split <;> exact hi
    have hset := settled_of_inbox hempty
    rw [hset]
    refine ⟨settled_of_inbox hi,by rw [htracking]; split <;> rfl,fun hc hne => ?_⟩
    let now : Session := { s with channel := s.channel.change receiver (.record m) }
    have hrecorded : s.tracking m = now := htracking.trans (if_pos (hm.isTracked.mpr hne))
    rw [hrecorded]
    exact ⟨rfl,run_send_stuck (s := now) rfl hc hi hq he hsynced⟩

/-- A list of threads that no frame can hold, in a session that has done the handshake. -/
theorem send_unsendable_threads :
    let target := Target.willing ⟨false,20,4,SyncParameters.padId [109]⟩ 9
    let s := (synchronize.run (ofLink (.ofTarget target) 2)).2
    let m := Message.threadList ⟨List.replicate 256 0⟩
    s.state.isSynchronized = true ∧ s.state.outstanding = none ∧ m.Frameless ∧
      s.channel.isConnected = true ∧ s.channel.link.inbox = [] ∧
      (send m).run s = (.error (.frame (.dataTooLong 256 255)),s) := by
  intro target s m
  have hs : s.state.isSynchronized = true := by decide +kernel
  have hfree : s.state.outstanding = none := by decide +kernel
  have hl : (List.replicate 256 (0 : UInt8)).length = 256 := List.length_replicate
  have hm : m.Frameless := .inr (.inr ⟨_,rfl,by rw [hl]; decide⟩)
  have hc : s.channel.isConnected = true := by decide +kernel
  have hi : s.channel.link.inbox = [] := by decide +kernel
  obtain ⟨e,he,hiff,-,hquiet⟩ := send_unsendable hs hfree hm
  obtain ⟨hnow,-,hquiet⟩ := hquiet (List.isEmpty_iff.mp (by decide +kernel))
  have hframe := Message.frame_of_long (m := m) rfl rfl (by rw [hl]; decide) 0
  rw [hnow] at hiff
  have hrun := hiff.mpr ⟨hc,rfl⟩
  rw [(hquiet hi).1,← Except.error.inj (hframe.symm.trans (he 0)),hl] at hrun
  exact ⟨hs,hfree,hm,hc,hi,hrun⟩

/-- The start of a module whose name is too long for a frame, in the same session: nothing is sent, but
the message is outstanding, and the next one, which could be sent, is not. -/
theorem send_unsendable_stuck :
    let target := Target.willing ⟨false,20,4,SyncParameters.padId [109]⟩ 9
    let s := (synchronize.run (ofLink (.ofTarget target) 2)).2
    let m := Message.threadStart ⟨List.replicate 256 97⟩
    let run := (send m).run s
    s.state.isSynchronized = true ∧ s.state.outstanding = none ∧ s.channel.isConnected = true ∧
      run.2.state.outstanding = some m ∧ run.2.channel.link.received = s.channel.link.received ∧
      ((send (.threadStart ⟨[109]⟩)).run s).1.toBool = true ∧
      (send (.threadStart ⟨[109]⟩)).run run.2 = (.error (.frame (.dataTooLong 256 255)),run.2) := by
  intro target s m run
  have hl : (List.replicate 256 (97 : UInt8)).length = 256 := List.length_replicate
  have hframe := Message.frame_of_long (m := m) rfl rfl (by rw [hl]; decide)
  rw [hl] at hframe
  have ho : run.2.state.outstanding = some m := by decide +kernel
  have hstuck := run_send_stuck ho (by decide +kernel) (by decide +kernel)
    (List.isEmpty_iff.mp (by decide +kernel)) hframe (by decide +kernel) (.threadStart ⟨[109]⟩)
  have hretries : run.2.retries = 2 := by decide +kernel
  rw [stuckError,hretries] at hstuck
  refine ⟨?_,?_,?_,ho,?_,?_,hstuck⟩ <;> decide +kernel

end Session

end RemotePyMite
