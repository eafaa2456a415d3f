import RemotePyMite.Proofs.Session.Incoming

/-! # What the history of a session tells

Everything that changes what a session knows of its target is an event of its log, so the log up to
any moment gives the state at that moment (`after`).  The two halves of the handshake, the parameters
of the target and the outstanding message can each be read off the events themselves.
-/
namespace RemotePyMite

/-- What happened in a session, the latest first. -/
abbrev History := List (Event SessionChange)

namespace SessionState

/-- The state of a new session after these events. -/
def after : History → SessionState
  | [] => .initial
  | .received m :: earlier => ((after earlier).receive m).state
  | .changed change :: earlier => (after earlier).change change
  | .sent _ :: earlier => after earlier
  | .unsent _ :: earlier => after earlier
  | .broke _ :: earlier => after earlier

/-- The state that these events make of another. -/
def replay (start : SessionState) : History → SessionState
  | [] => start
  | .received m :: earlier => ((replay start earlier).receive m).state
  | .changed change :: earlier => (replay start earlier).change change
  | .sent _ :: earlier => replay start earlier
  | .unsent _ :: earlier => replay start earlier
  | .broke _ :: earlier => replay start earlier

/-- Some event since the handshake began last satisfies `Q`, given what happened before it. -/
def Lately (Q : Event SessionChange → History → Prop) (log : History) : Prop :=
  ∃ later event earlier, log = later ++ event :: earlier ∧ Q event earlier ∧
    .changed .beginHandshake ∉ later

variable {Q : Event SessionChange → History → Prop} {log : History}

theorem not_lately_nil : ¬Lately Q [] := by
  rintro ⟨later,event,earlier,h,-⟩
  cases later <;> cases h

theorem lately_cons {event : Event SessionChange} :
    Lately Q (event :: log) ↔ Q event log ∨ event ≠ .changed .beginHandshake ∧ Lately Q log := by
  constructor
  · rintro ⟨later,found,earlier,h,hQ,hnew⟩
    cases later with
    | nil =>
      cases h
      exact .inl hQ
    | cons first rest =>
      cases h
      rw [List.mem_cons,not_or] at hnew
      exact .inr ⟨Ne.symm hnew.1,rest,found,earlier,rfl,hQ,hnew.2⟩
  · rintro (hQ | ⟨hne,later,found,earlier,rfl,hQ,hnew⟩)
    · exact ⟨[],event,log,rfl,hQ,List.not_mem_nil⟩
    · refine ⟨event :: later,found,earlier,rfl,hQ,?_⟩
      rw [List.mem_cons,not_or]
      exact ⟨Ne.symm hne,hnew⟩

/-- The target tells its parameters. -/
def IsSync (event : Event SessionChange) (_ : History) : Prop :=
  ∃ p, event = .received (.sync p)

/-- The target acknowledges the parameters of the host. -/
def IsSyncAck (event : Event SessionChange) (earlier : History) : Prop :=
  event = .received .ack ∧ ∃ p, (after earlier).outstanding = some (.sync p)

theorem outstandingKind_giveUp (state : SessionState) (kind : Kind) :
    (state.change (.giveUp kind)).outstandingKind ≠ some kind := by
  rw [change,dropOutstanding]
  split
  · simp [outstandingKind]
  · next h => exact h

theorem outstandingKind_eq_sync_iff {s : SessionState} :
    s.outstandingKind = some .sync ↔ ∃ p, s.outstanding = some (.sync p) := by
  unfold outstandingKind
  cases s.outstanding with
  | none => simp
  | some m => cases m <;> simp [Message.kind]

/-- What a message leaves of the state if it brings nothing but lists or text. -/
theorem handshake_dropOutstanding (s : SessionState) (kind : Kind) :
    (s.dropOutstanding kind).syncedIncoming = s.syncedIncoming ∧
      (s.dropOutstanding kind).syncedOutgoing = s.syncedOutgoing ∧
      (s.dropOutstanding kind).parameters = s.parameters := by
  unfold dropOutstanding
  split <;> exact ⟨rfl,rfl,rfl⟩

theorem handshake_onPrint (s : SessionState) (print : ThreadPrint) :
    (s.onPrint print).state.syncedIncoming = s.syncedIncoming ∧
      (s.onPrint print).state.syncedOutgoing = s.syncedOutgoing ∧
      (s.onPrint print).state.parameters = s.parameters := by
  unfold onPrint
  split <;> exact ⟨rfl,rfl,rfl⟩

/-- The messages that touch the handshake, and all others. -/
theorem handshake_cases (m : Message) :
    (∃ p, m = .sync p) ∨ m = .ack ∨ (∀ p, m ≠ .sync p) ∧ m ≠ .ack := by
  by_cases hs : ∃ p, m = .sync p
  · exact .inl hs
  · by_cases ha : m = .ack
    · exact .inr (.inl ha)
    · exact .inr (.inr ⟨fun p hp => hs ⟨p,hp⟩,ha⟩)

/-- Only parameters and acknowledgments of the target touch the handshake. -/
theorem handshake_receive (s : SessionState) {m : Message} (hs : ∀ p, m ≠ .sync p) (ha : m ≠ .ack) :
    (s.receive m).state.syncedIncoming = s.syncedIncoming ∧
      (s.receive m).state.syncedOutgoing = s.syncedOutgoing ∧
      (s.receive m).state.parameters = s.parameters := by
  cases m with
  | sync p => exact absurd rfl (hs p)
  | ack => exact absurd rfl ha
  | threadPrintItem print => exact s.handshake_onPrint print
  | threadPrintExpr print => exact s.handshake_onPrint print
  | threadList list =>
    simp only [receive,onThreadList]
    split
    · next threads _ => exact handshake_dropOutstanding { s with threads := some threads } _
    · exact ⟨rfl,rfl,rfl⟩
  | memList list =>
    simp only [receive,onMemoryList]
    split <;> exact ⟨rfl,rfl,rfl⟩
  | _ => exact ⟨rfl,rfl,rfl⟩

theorem handshake_change (s : SessionState) {change : SessionChange} (h : change ≠ .beginHandshake) :
    (s.change change).syncedIncoming = s.syncedIncoming ∧
      (s.change change).syncedOutgoing = s.syncedOutgoing ∧
      (s.change change).parameters = s.parameters := by
  cases change with
  | beginHandshake => exact absurd rfl h
  | giveUp kind => exact s.handshake_dropOutstanding kind
  | _ => exact ⟨rfl,rfl,rfl⟩

/-- The first half of the handshake counts as done exactly if the target has told its parameters
since the handshake began last, the second exactly if it has acknowledged those of the host. -/
theorem handshake_after (log : History) :
    ((after log).syncedIncoming = true ↔ Lately IsSync log) ∧
      ((after log).syncedOutgoing = true ↔ Lately IsSyncAck log) := by
  induction log with
  | nil => exact ⟨by simp [after,initial,not_lately_nil],by simp [after,initial,not_lately_nil]⟩
  | cons event log ih =>
    rw [lately_cons,lately_cons,← ih.1,← ih.2]
    cases event with
    | sent frame | unsent frame => simp [after,IsSync,IsSyncAck]
    | broke reason => simp [after,IsSync,IsSyncAck]
    | changed change =>
      by_cases hc : change = .beginHandshake
      · subst hc
        simp [after,change,IsSync,IsSyncAck]
      · obtain ⟨hi,ho,-⟩ := (after log).handshake_change hc
        simp [after,IsSync,IsSyncAck,hc,hi,ho]
    | received m =>
      rcases handshake_cases m with ⟨p,rfl⟩ | rfl | ⟨hs,ha⟩
      · simp [after,IsSync,IsSyncAck,receive,onSync]
      · simp [after,IsSync,IsSyncAck,receive,onAck,outstandingKind_eq_sync_iff,or_comm]
      · obtain ⟨hi,ho,-⟩ := (after log).handshake_receive hs ha
        simp [after,IsSync,IsSyncAck,hs,ha,hi,ho]

/-- The parameters that a message from the target tells. -/
def told? : Event SessionChange → Option SyncParameters
  | .received (.sync p) => some p
  | _ => none

theorem parameters_after (log : History) : (after log).parameters = log.findSome? told? := by
  induction log with
  | nil => rfl
  | cons event log ih =>
    rw [List.findSome?_cons]
    cases event with
    | sent frame | unsent frame => exact ih
    | broke reason => exact ih
    | changed change =>
      by_cases hc : change = .beginHandshake
      · subst hc
        exact ih
      · exact ((after log).handshake_change hc).2.2.trans ih
    | received m =>
      rcases handshake_cases m with ⟨p,rfl⟩ | rfl | ⟨hs,ha⟩
      · rfl
      · exact ih
      · have htold : told? (.received m) = none := by
          cases m with
          | sync p => exact absurd rfl (hs p)
          | _ => rfl
        rw [htold]
        exact ((after log).handshake_receive hs ha).2.2.trans ih

theorem progress_eq_synchronized_iff (s : SessionState) :
    s.progress = .synchronized ↔ s.syncedIncoming = true ∧ s.syncedOutgoing = true := by
  unfold progress isSynchronized
  cases s.syncedIncoming <;> cases s.syncedOutgoing <;> simp
  all_goals split <;> simp

/-- A message is outstanding only if it has been so from the start, and was not given up, or if it was
recorded. -/
theorem kept_or_recorded {start : SessionState} {m : Message}
    (h : (replay start log).outstanding = some m) :
    start.outstanding = some m ∧ .changed (.giveUp m.kind) ∉ log ∨ .changed (.record m) ∈ log := by
  induction log with
  | nil => exact .inl ⟨h,List.not_mem_nil⟩
  | cons event log ih =>
    simp only [List.mem_cons,not_or]
    have hkept (he : .changed (.giveUp m.kind) ≠ event) (h : (replay start log).outstanding = some m) :
        start.outstanding = some m ∧ .changed (.giveUp m.kind) ≠ event ∧ .changed (.giveUp m.kind) ∉ log ∨
          .changed (.record m) = event ∨ .changed (.record m) ∈ log :=
      (ih h).imp (fun hs => ⟨hs.1,he,hs.2⟩) .inr
    cases event with
    | sent frame | unsent frame => exact hkept (by simp) h
    | broke reason => exact hkept (by simp) h
    | received k =>
      rcases (replay start log).outstanding_receive k with hr | hr
      · cases hr.symm.trans h
      · exact hkept (by simp) (hr.symm.trans h)
    | changed change =>
      cases change with
      | record m' =>
        cases h
        exact .inr (.inl rfl)
      | giveUp kind =>
        by_cases hk : (replay start log).outstandingKind = some kind
        · rw [replay,change,dropOutstanding,if_pos hk] at h
          cases h
        · rw [replay,change,dropOutstanding,if_neg hk] at h
          refine hkept ?_ h
          rintro ⟨⟩
          exact hk (by rw [outstandingKind,h,Option.map_some])
      | _ => exact hkept (by simp) h

theorem recorded_of_replay {start : SessionState} {m : Message}
    (h : (replay start log).outstanding = some m) :
    start.outstanding = some m ∨ .changed (.record m) ∈ log :=
  (kept_or_recorded h).imp_left And.left

theorem after_append (later past : History) : after (later ++ past) = replay (after past) later := by
  induction later with
  | nil => rfl
  | cons event later ih => cases event <;> simp [after,replay,ih]

/-- A message that was not outstanding at a moment is so later only if it was recorded between. -/
theorem recorded_between {later past : History} {m : Message}
    (h : (after (later ++ past)).outstanding = some m) :
    (after past).outstanding = some m ∨ .changed (.record m) ∈ later :=
  recorded_of_replay (after_append later past ▸ h)

theorem recorded_of_outstanding {m : Message} (h : (after log).outstanding = some m) :
    .changed (.record m) ∈ log := by
  rw [← log.append_nil] at h
  rcases recorded_between h with hnil | hmem
  · cases hnil
  · exact hmem

end SessionState

end RemotePyMite
