import RemotePyMite.Proofs.Session.Answer

/-! # What the host tells in a handshake

The host announces its parameters: it records them and sends them.  `Tells` says of the events of a call
how often that has happened, why each frame was sent and what the target has said; all that comes in keeps
it (`upholds_tells`).
-/
namespace RemotePyMite

/-- The parameters that a frame tells. -/
def Frame.sync? (f : Frame) : Option SyncParameters :=
  match f.message? with
  | some (.sync p) => some p
  | _ => none

namespace SessionState

/-- The parameters that the host has sent of its own accord, and not as an answer, the earliest first; those
whose writing broke off are among them. -/
def announced (start : SessionState) : History → List SyncParameters
  | [] => []
  | event :: earlier =>
    announced start earlier ++
      if answerDue start earlier then [] else (event.frame?.bind Frame.sync?).toList

/-- Nothing was recorded. -/
def Unrecorded (log : History) : Prop :=
  ∀ m, .changed (.record m) ∉ log

/-- The target has told its parameters. -/
def Heard (log : History) : Prop :=
  ∃ p, .received (.sync p) ∈ log

/-- The target has acknowledged something while parameters of the host were outstanding: some that had been
recorded since the state was `start`, or some that had been outstanding then and were not taken back. -/
def Acknowledged (start : SessionState) (log : History) : Prop :=
  ∃ p earlier, .received .ack :: earlier <:+ log ∧ (replay start earlier).outstanding = some (.sync p) ∧
    (.changed (.record (.sync p)) ∈ earlier ∨
      start.outstanding = some (.sync p) ∧ .changed (.giveUp .sync) ∉ earlier)

/-- When the last wait was over one of the two was missing, and the host has done nothing since. -/
def Missed (start : SessionState) (log : History) : Prop :=
  ∃ later past, log = later ++ past ∧ ¬(Heard past ∧ Acknowledged start past) ∧
    (∀ change, .changed change ∉ later) ∧ announced start log = announced start past

/-- Why a frame is sent after the events `earlier`. -/
inductive Cause (start : SessionState) (frame : Frame) : (earlier : History) → Prop
  /-- It answers a message of the target. -/
  | answer {m reply : Message} {n : UInt8} {older : History}
      (hr : ((replay start older).receive m).reply = some reply) (hf : reply.frame n = .ok frame) :
      Cause start frame (.received m :: older)
  /-- It announces parameters, and nothing else is outstanding. -/
  | announce {p : SyncParameters} {n : UInt8} {earlier : History}
      (hm : .changed (.record (.sync p)) ∈ earlier)
      (ho : (replay start earlier).outstanding = none ∨ (replay start earlier).outstanding = some (.sync p))
      (hf : (Message.sync p).frame n = .ok frame) : Cause start frame earlier
  /-- It repeats a message that was outstanding at the start and is not about parameters. -/
  | again {m : Message} {n : UInt8} {earlier : History} (hnew : Unrecorded earlier)
      (ho : start.outstanding = some m) (hs : m.kind ≠ .sync) (hf : m.frame n = .ok frame) :
      Cause start frame earlier

/-- What is recorded after the events `earlier` are parameters of the host, where nothing is outstanding,
and what is sent has a cause. -/
def Justified (start : SessionState) (earlier : History) : Event SessionChange → Prop
  | .sent frame => Cause start frame earlier
  | .unsent frame => Cause start frame earlier
  | .changed (.record m) =>
    (∃ reset, m = .sync (.host reset)) ∧ (replay start earlier).outstanding = none
  | _ => True

/-- The host has announced its parameters `k` times, first as one that knows nothing of the link and then
as one that does. -/
structure Tells (start : SessionState) (k : Nat) (log : History) (state : SessionState) : Prop where
  state_eq : state = replay start log
  announced_eq : announced start log = (List.range k).map fun i => .host (i = 0)
  recorded : k ≠ 0 → ¬Unrecorded log
  justified : ∀ event earlier, event :: earlier <:+ log → Justified start earlier event
  incoming : state.syncedIncoming = true ↔ Heard log
  outgoing : state.syncedOutgoing = true ↔ Acknowledged start log

variable {start state state' : SessionState} {k : Nat} {log : History} {event : Event SessionChange}

theorem sync?_of_frame {m : Message} {n : UInt8} {frame : Frame} (h : m.frame n = .ok frame) :
    frame.sync? = match m with
      | .sync p => some p
      | _ => none := by
  rw [Frame.sync?,Message.message?_of_frame h]
  cases m <;> rfl

theorem unrecorded_cons (he : ∀ m, event ≠ .changed (.record m)) (h : Unrecorded log) :
    Unrecorded (event :: log) := by
  intro m hm
  rcases List.mem_cons.mp hm with hm | hm
  · exact he m hm.symm
  · exact h m hm

theorem Unrecorded.of_cons (h : Unrecorded (event :: log)) : Unrecorded log :=
  fun m hm => h m (List.mem_cons_of_mem _ hm)

/-- What is known of the outstanding message by what happened is known of it as long as it is outstanding. -/
theorem keeps_outstanding {C : Message → History → Prop} (hC : ∀ {m log} {event : Event SessionChange},
    (∀ other, event ≠ .changed (.record other)) → C m log → C m (event :: log)) :
    receiver.Keeps fun log state => ∀ m, state.outstanding = some m → C m log := by
  have hreceived {log : History} {state : SessionState} (k : Message)
      (h : ∀ m, state.outstanding = some m → C m log) :
      ∀ m, (state.receive k).state.outstanding = some m → C m (.received k :: log) := by
    intro m ho
    rcases state.outstanding_receive k with hr | hr
    · cases hr.symm.trans ho
    · exact hC (by simp) (h m (hr.symm.trans ho))
  refine ⟨fun k h => hreceived k h,?_,fun reason h m ho => hC (by simp) (h m ho)⟩
  intro log state k reply n frame event h _ _ ht m ho
  exact hC (by cases ht <;> simp) (hreceived k h m ho)

/-- What no event but a recording undoes is kept by all that comes in. -/
theorem keeps_log {C : History → Prop} (hC : ∀ {log} {event : Event SessionChange},
    (∀ other, event ≠ .changed (.record other)) → C log → C (event :: log)) :
    receiver.Keeps fun log _ => C log where
  received := fun m h => hC (by simp) h
  replied := fun m _ _ _ _ h _ _ ht => hC (by cases ht <;> simp) (hC (by simp) h)
  broke := fun reason h => hC (by simp) h

theorem announced_cons (he : event.frame? = none) (log : History) :
    announced start (event :: log) = announced start log := by
  rw [announced,he]
  split <;> exact List.append_nil _

theorem announced_answer (h : answerDue start log = true) (event : Event SessionChange) :
    announced start (event :: log) = announced start log := by
  rw [announced,if_pos h,List.append_nil]

theorem announced_frame {m : Message} {n : UInt8} {frame : Frame} (hf : m.frame n = .ok frame)
    (ht : event.Tries frame) (hm : ∀ p, m ≠ .sync p) :
    announced start (event :: log) = announced start log := by
  have hnone : frame.sync? = none := by
    rw [sync?_of_frame hf]
    cases m with
    | sync p => exact absurd rfl (hm p)
    | _ => rfl
  rw [announced,ht.frame?_eq,Option.bind_some,hnone]
  split <;> exact List.append_nil _

theorem announced_own {p : SyncParameters} {n : UInt8} {frame : Frame}
    (hf : (Message.sync p).frame n = .ok frame) (ht : event.Tries frame) (hd : answerDue start log = false) :
    announced start (event :: log) = announced start log ++ [p] := by
  have hsome : frame.sync? = some p := sync?_of_frame hf
  rw [announced,ht.frame?_eq,Option.bind_some,hsome,if_neg (by simp [hd])]
  rfl

theorem heard_cons : Heard (event :: log) ↔ (∃ p, event = .received (.sync p)) ∨ Heard log := by
  simp only [Heard,List.mem_cons,exists_or,eq_comm]

/-- Parameters are outstanding because they were recorded, or from the start. -/
theorem outstandingKind_replay : (replay start log).outstandingKind = some .sync ↔
    ∃ p, (replay start log).outstanding = some (.sync p) ∧ (.changed (.record (.sync p)) ∈ log ∨
      start.outstanding = some (.sync p) ∧ .changed (.giveUp .sync) ∉ log) := by
  rw [outstandingKind_eq_sync_iff]
  exact exists_congr fun p => (and_iff_left_of_imp fun ho => (kept_or_recorded ho).symm).symm

theorem acknowledged_cons : Acknowledged start (event :: log) ↔
    (event = .received .ack ∧ (replay start log).outstandingKind = some .sync) ∨
      Acknowledged start log := by
  rw [outstandingKind_replay]
  constructor
  · rintro ⟨p,earlier,hs,ho,hr⟩
    rcases List.suffix_cons_iff.mp hs with heq | hs
    · cases heq
      exact .inl ⟨rfl,p,ho,hr⟩
    · exact .inr ⟨p,earlier,hs,ho,hr⟩
  · rintro (⟨rfl,p,ho,hr⟩ | ⟨p,earlier,hs,ho,hr⟩)
    · exact ⟨p,log,List.suffix_rfl,ho,hr⟩
    · exact ⟨p,earlier,hs.trans (List.suffix_cons _ _),ho,hr⟩

theorem Missed.cons (h : Missed start log) (he : ∀ change, event ≠ .changed change)
    (ha : announced start (event :: log) = announced start log) : Missed start (event :: log) := by
  obtain ⟨later,past,rfl,hmissing,hidle,hsame⟩ := h
  refine ⟨event :: later,past,rfl,hmissing,fun change => ?_,ha.trans hsame⟩
  rw [List.mem_cons,not_or]
  exact ⟨(he change).symm,hidle change⟩

theorem Tells.justified_cons (h : Tells start k log state) (he : Justified start log event) :
    ∀ other earlier, other :: earlier <:+ event :: log → Justified start earlier other := by
  intro other earlier hs
  rcases List.suffix_cons_iff.mp hs with heq | hs
  · cases heq
    exact he
  · exact h.justified other earlier hs

/-- An event that is no frame and records nothing. -/
theorem Tells.cons (h : Tells start k log state) (hs : event.frame? = none)
    (hr : ∀ m, event ≠ .changed (.record m)) (he : state' = replay start (event :: log))
    (hi : state'.syncedIncoming = true ↔ Heard (event :: log))
    (ho : state'.syncedOutgoing = true ↔ Acknowledged start (event :: log)) :
    Tells start k (event :: log) state' := by
  have hother : Justified start log event := by
    unfold Justified
    split
    · cases hs
    · cases hs
    · next m => exact absurd rfl (hr m)
    · trivial
  exact ⟨he,(announced_cons hs log).trans h.announced_eq,fun hk hnew => h.recorded hk hnew.of_cons,
    h.justified_cons hother,hi,ho⟩

theorem Tells.frame (h : Tells start k log state) {frame : Frame} {j : Nat} (ht : event.Tries frame)
    (ha : announced start (event :: log) = (List.range j).map fun i => .host (i = 0))
    (hj : j ≠ 0 → ¬Unrecorded log) (hc : Cause start frame log) :
    Tells start j (event :: log) state := by
  refine ⟨?_,ha,fun hk hnew => hj hk hnew.of_cons,h.justified_cons ?_,?_,?_⟩
  · cases ht <;> exact h.state_eq
  · cases ht <;> exact hc
  · cases ht <;> exact h.incoming.trans (by simp [heard_cons])
  · cases ht <;> exact h.outgoing.trans (by simp [acknowledged_cons])

theorem Tells.received (h : Tells start k log state) (m : Message) :
    Tells start k (.received m :: log) (state.receive m).state := by
  have he : (state.receive m).state = replay start (.received m :: log) := by
    rw [h.state_eq]
    rfl
  refine h.cons rfl (by simp) he ?_ ?_
  · rw [heard_cons,← h.incoming]
    rcases handshake_cases m with ⟨p,rfl⟩ | rfl | ⟨hs,ha⟩
    · simp [receive,onSync]
    · simp [receive,onAck]
    · simp [(state.handshake_receive hs ha).1,hs]
  · rw [acknowledged_cons,← h.outgoing,← h.state_eq]
    rcases handshake_cases m with ⟨p,rfl⟩ | rfl | ⟨hs,ha⟩
    · simp [receive,onSync]
    · simp [receive,onAck,or_comm]
    · simp [(state.handshake_receive hs ha).2.1,ha]

theorem Tells.answered (h : Tells start k log state) {m reply : Message} {n : UInt8} {frame : Frame}
    (hr : (state.receive m).reply = some reply) (hf : reply.frame n = .ok frame) (ht : event.Tries frame) :
    Tells start k (event :: .received m :: log) (state.receive m).state := by
  have hreceived := h.received m
  rw [h.state_eq] at hr
  refine hreceived.frame ht ?_ hreceived.recorded (.answer hr hf)
  rw [announced_answer (answerDue_of_reply hr hf)]
  exact hreceived.announced_eq

/-- Where a message that is not about parameters has been outstanding from the start and nothing was
recorded, no parameters were sent. -/
theorem Tells.silent (h : Tells start k log state) {m : Message} (hstart : start.outstanding = some m)
    (hs : m.kind ≠ .sync) (hnew : Unrecorded log) :
    ∀ event ∈ log, event.frame?.bind Frame.sync? = none := by
  have hother {frame : Frame} {n : UInt8} (hf : m.frame n = .ok frame) : frame.sync? = none := by
    rw [sync?_of_frame hf]
    cases m with
    | sync p => exact absurd rfl hs
    | _ => rfl
  have hcause {frame : Frame} {earlier : History} (hc : Cause start frame earlier)
      (he : earlier <:+ log) : frame.sync? = none := by
    cases hc with
    | answer hr hf =>
      rcases reply_receive hr with rfl | ⟨ho,-⟩
      · exact sync?_of_frame hf
      · rcases recorded_of_replay ho with ho | hm
        · cases hstart.symm.trans ho
          exact hother hf
        · exact absurd (he.subset (List.mem_cons_of_mem _ hm)) (hnew _)
    | announce hm ho hf => exact absurd (he.subset hm) (hnew _)
    | again _ ho _ hf =>
      cases hstart.symm.trans ho
      exact hother hf
  intro event he
  obtain ⟨later,earlier,rfl⟩ := List.append_of_mem he
  have hj := h.justified event earlier (List.suffix_append _ _)
  have hearlier : earlier <:+ later ++ event :: earlier :=
    (List.suffix_cons _ _).trans (List.suffix_append _ _)
  cases event with
  | sent frame => exact hcause hj hearlier
  | unsent frame => exact hcause hj hearlier
  | _ => rfl

/-- What was outstanding at the start is sent again. -/
theorem Tells.again (h : Tells start k log state) {m : Message} {n : UInt8} {frame : Frame}
    (hnew : Unrecorded log) (ho : start.outstanding = some m) (hs : m.kind ≠ .sync)
    (hf : m.frame n = .ok frame) (ht : event.Tries frame) : Tells start k (event :: log) state := by
  refine h.frame ht ?_ h.recorded (.again hnew ho hs hf)
  rw [announced_frame hf ht]
  · exact h.announced_eq
  · rintro p rfl
    exact hs rfl

theorem Tells.record (h : Tells start k log state) (reset : Bool) (ho : state.outstanding = none) :
    Tells start k (.changed (.record (.sync (.host reset))) :: log)
      (state.change (.record (.sync (.host reset)))) := by
  refine ⟨?_,?_,fun _ hnew => hnew _ List.mem_cons_self,
    h.justified_cons ⟨⟨reset,rfl⟩,h.state_eq ▸ ho⟩,?_,?_⟩
  · rw [h.state_eq]
    rfl
  · exact (announced_cons rfl log).trans h.announced_eq
  · exact h.incoming.trans (by simp [heard_cons])
  · exact h.outgoing.trans (by simp [acknowledged_cons])

/-- Parameters that are recorded are announced once more. -/
theorem Tells.announce {reset : Bool} (h : Tells start k log state) (hd : answerDue start log = false)
    (hm : .changed (.record (.sync (.host reset))) ∈ log)
    (ho : state.outstanding = none ∨ state.outstanding = some (.sync (.host reset)))
    (hr : reset = decide (k = 0)) {n : UInt8} {frame : Frame}
    (hf : (Message.sync (.host reset)).frame n = .ok frame) (ht : event.Tries frame) :
    Tells start (k + 1) (event :: log) state := by
  refine h.frame ht ?_ (fun _ hnew => hnew _ hm) (.announce hm (h.state_eq ▸ ho) hf)
  rw [announced_own hf ht hd,h.announced_eq,List.range_succ,List.map_append,hr]
  rfl

end SessionState

end RemotePyMite
