import RemotePyMite.Session.Incoming

/-! # What a message does to the outstanding one

A message that comes in leaves the outstanding message or clears it, and is answered by an
acknowledgment, by the outstanding message once more, or not at all.
-/
namespace RemotePyMite.SessionState

theorem outstanding_dropOutstanding (s : SessionState) (kind : Kind) :
    (s.dropOutstanding kind).outstanding = none ∨
      (s.dropOutstanding kind).outstanding = s.outstanding := by
  unfold dropOutstanding
  split
  · exact .inl rfl
  · exact .inr rfl

theorem outstanding_onPrint (s : SessionState) (print : ThreadPrint) :
    (s.onPrint print).state.outstanding = s.outstanding ∧ (s.onPrint print).reply = none := by
  unfold onPrint
  split <;> exact ⟨rfl,rfl⟩

/-- Giving the outstanding message up leaves the lists of the target. -/
theorem lists_dropOutstanding (s : SessionState) (kind : Kind) :
    (s.dropOutstanding kind).threads = s.threads ∧ (s.dropOutstanding kind).memory = s.memory ∧
      (s.dropOutstanding kind).autorun = s.autorun := by
  unfold dropOutstanding
  split <;> exact ⟨rfl,rfl,rfl⟩

theorem lists_onPrint (s : SessionState) (print : ThreadPrint) :
    (s.onPrint print).state.threads = s.threads ∧ (s.onPrint print).state.memory = s.memory ∧
      (s.onPrint print).state.autorun = s.autorun := by
  unfold onPrint
  split <;> exact ⟨rfl,rfl,rfl⟩

theorem outstanding_receive (s : SessionState) (m : Message) :
    (s.receive m).state.outstanding = none ∨
      (s.receive m).state.outstanding = s.outstanding := by
  cases m with
  | ack => exact .inl rfl
  | autorunList list => exact .inl rfl
  | threadPrintItem print => exact .inr (s.outstanding_onPrint print).1
  | threadPrintExpr print => exact .inr (s.outstanding_onPrint print).1
  | threadList list =>
    simp only [receive,onThreadList]
    split
    · next threads _ => exact outstanding_dropOutstanding { s with threads := some threads } _
    · exact .inr rfl
  | memList list =>
    simp only [receive,onMemoryList]
    split
    · exact .inl rfl
    · exact .inr rfl
  | _ => exact .inr rfl

theorem outstanding_receive_of_none {s : SessionState} (m : Message) (h : s.outstanding = none) :
    (s.receive m).state.outstanding = none :=
  (s.outstanding_receive m).elim id fun hr => hr.trans h

/-- A message is answered by an acknowledgment, or it refuses the outstanding message, which is then
sent again and stays outstanding. -/
theorem reply_cases {s : SessionState} {m reply : Message} (h : (s.receive m).reply = some reply) :
    reply = .ack ∨ m = .nack ∧ s.outstanding = some reply ∧ (s.receive m).state = s := by
  cases m with
  | sync p =>
    simp only [receive,onSync] at h
    split at h
    · exact .inl (Option.some.inj h).symm
    · cases h
  | nack => exact .inr ⟨rfl,h,rfl⟩
  | threadPrintItem print =>
    rw [receive,(s.outstanding_onPrint print).2] at h
    cases h
  | threadPrintExpr print =>
    rw [receive,(s.outstanding_onPrint print).2] at h
    cases h
  | threadList list => exact .inl (Option.some.inj h).symm
  | memList list => exact .inl (Option.some.inj h).symm
  | _ => cases h

theorem reply_receive {s : SessionState} {m reply : Message}
    (h : (s.receive m).reply = some reply) :
    reply = .ack ∨ s.outstanding = some reply ∧ (s.receive m).state = s :=
  (reply_cases h).imp_right And.right

end RemotePyMite.SessionState
