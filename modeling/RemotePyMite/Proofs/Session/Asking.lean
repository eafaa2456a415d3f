import RemotePyMite.Proofs.Session.Announcement
import RemotePyMite.Proofs.Session.Effort

/-! # What a question has come to

A session keeps what the target tells in answer to a question until it is asked for.  `Asks` says how often
a request was sent on its own account and that what is kept is what was told last; all that comes in keeps
it (`keeps_asks`).
-/
namespace RemotePyMite

/-- A message is recorded. -/
def Event.isRecord : Event SessionChange → Bool
  | .changed (.record _) => true
  | _ => false

theorem Frame.isOf_iff {m : Message} {n : UInt8} {frame : Frame} (h : m.frame n = .ok frame)
    (other : Message) : frame.isOf other = true ↔ m = other := by
  rw [isOf,decide_eq_true_eq]
  constructor
  · intro ho
    cases hother : other.frame frame.sequence with
    | error e =>
      rw [hother] at ho
      cases ho
    | ok found =>
      rw [hother] at ho
      cases ho
      exact Message.eq_of_frame h hother
  · rintro rfl
    rw [Message.sequence_of_frame h,h]
    rfl

namespace SessionState

/-- How often a message was sent, whole or not, where `counts` held of what happened before. -/
def sendingsOf (m : Message) (counts : History → Bool) : History → Nat
  | [] => 0
  | event :: earlier =>
    if event.frame?.any (·.isOf m) && counts earlier then sendingsOf m counts earlier + 1
    else sendingsOf m counts earlier

/-- The target has just refused the message, which is outstanding. -/
def refused (start : SessionState) (m : Message) (earlier : History) : Bool :=
  earlier.head?.any Event.isRefusal && (replay start earlier).outstanding = some m

/-- The message has been outstanding from the start and is still waited for.  Where it is tracked that can be
so even when it has just been cleared; it is not sent on its own account before it is recorded. -/
def unsettled (start : SessionState) (m : Message) (earlier : History) : Bool :=
  start.outstanding = some m && !earlier.any Event.isRecord &&
    (Session.isTracked m.kind || (replay start earlier).outstanding = some m)

/-- The message is sent on its own account. -/
def anew (start : SessionState) (m : Message) (earlier : History) : Bool :=
  !refused start m earlier && !unsettled start m earlier

/-- What the last message of the target that tells something has told; the latest event comes first. -/
def lastTold {α : Type} (told : SessionState → Message → Option α) (start : SessionState) :
    History → Option α
  | [] => none
  | .received m :: earlier => (told (replay start earlier) m).or (lastTold told start earlier)
  | _ :: earlier => lastTold told start earlier

/-- The threads that a message tells, its words as wide as those of the target are known to be. -/
def threadsTold (s : SessionState) : Message → Option (List UInt64)
  | .threadList list => (list.addresses s.wordSize).toOption
  | _ => none

def memoryTold (_ : SessionState) : Message → Option MemoryMap
  | .memList list => list.spaces.toOption
  | _ => none

def autorunTold (_ : SessionState) : Message → Option (List String)
  | .autorunList list => some list.names
  | _ => none

variable {α : Type} {query : Query α} {told : SessionState → Message → Option α}
  {start state : SessionState} {exact : Prop} {k : Nat} {log : History} {event : Event SessionChange}
  {frame : Frame}

/-- The session keeps what is told in answer to a question, and forgets it only for the question. -/
structure Understood (query : Query α) (told : SessionState → Message → Option α) : Prop where
  received : ∀ (s : SessionState) m, query.answer (s.receive m).state = (told s m).or (query.answer s)
  changed : ∀ (s : SessionState) change, change ≠ query.forget →
    query.answer (s.change change) = query.answer s
  forgotten : ∀ s : SessionState, query.answer (s.change query.forget) = none
  forget : query.forget = .forgetThreads ∨ query.forget = .forgetMemory ∨
    query.forget = .forgetAutorun
  operation : query.operation ≠ .send ∧ query.operation ≠ .synchronize
  request : query.request.kind ≠ .ack ∧ query.request.kind ≠ .sync

theorem Understood.ne_forget (hq : Understood query told) {change : SessionChange}
    (h : change ≠ .forgetThreads ∧ change ≠ .forgetMemory ∧ change ≠ .forgetAutorun) :
    change ≠ query.forget := by
  rcases hq.forget with hf | hf | hf <;> rw [hf]
  · exact h.1
  · exact h.2.1
  · exact h.2.2

theorem understood_threads : Understood .threads threadsTold where
  received := by
    intro s m
    cases m with
    | threadList list =>
      simp only [receive,onThreadList,threadsTold,Query.threads]
      cases list.addresses s.wordSize with
      | ok threads => exact (lists_dropOutstanding { s with threads := some threads } _).1
      | error e => rfl
    | memList list =>
      simp only [receive,onMemoryList]
      split <;> rfl
    | threadPrintItem print => exact (s.lists_onPrint print).1
    | threadPrintExpr print => exact (s.lists_onPrint print).1
    | _ => rfl
  changed := by
    intro s change h
    cases change with
    | forgetThreads => exact absurd rfl h
    | giveUp kind => exact (s.lists_dropOutstanding kind).1
    | _ => rfl
  forgotten := fun _ => rfl
  forget := .inl rfl
  operation := by decide
  request := by decide

theorem understood_memory : Understood .memory memoryTold where
  received := by
    intro s m
    cases m with
    | memList list =>
      simp only [receive,onMemoryList,memoryTold,Query.memory]
      cases list.spaces <;> rfl
    | threadList list =>
      simp only [receive,onThreadList]
      split
      · next threads _ => exact (lists_dropOutstanding { s with threads := some threads } _).2.1
      · rfl
    | threadPrintItem print => exact (s.lists_onPrint print).2.1
    | threadPrintExpr print => exact (s.lists_onPrint print).2.1
    | _ => rfl
  changed := by
    intro s change h
    cases change with
    | forgetMemory => exact absurd rfl h
    | giveUp kind => exact (s.lists_dropOutstanding kind).2.1
    | _ => rfl
  forgotten := fun _ => rfl
  forget := .inr (.inl rfl)
  operation := by decide
  request := by decide

theorem understood_autorun : Understood .autorun autorunTold where
  received := by
    intro s m
    cases m with
    | threadList list =>
      simp only [receive,onThreadList]
      split
      · next threads _ => exact (lists_dropOutstanding { s with threads := some threads } _).2.2
      · rfl
    | memList list =>
      simp only [receive,onMemoryList]
      split <;> rfl
    | threadPrintItem print => exact (s.lists_onPrint print).2.2
    | threadPrintExpr print => exact (s.lists_onPrint print).2.2
    | _ => rfl
  changed := by
    intro s change h
    cases change with
    | forgetAutorun => exact absurd rfl h
    | giveUp kind => exact (s.lists_dropOutstanding kind).2.2
    | _ => rfl
  forgotten := fun _ => rfl
  forget := .inr (.inr rfl)
  operation := by decide
  request := by decide

/-- What is kept was told last, and the request was sent `k` times on its own account, if that is `exact`. -/
structure Asks (query : Query α) (told : SessionState → Message → Option α) (start : SessionState)
    (exact : Prop) (k : Nat) (log : History) (state : SessionState) : Prop where
  state_eq : state = replay start log
  answer_eq : query.answer state = lastTold told start log
  sendings_eq : exact → sendingsOf query.request (anew start query.request) log = k

theorem sendingsOf_cons {m : Message} {counts : History → Bool} (he : event.frame? = none) :
    sendingsOf m counts (event :: log) = sendingsOf m counts log := by
  rw [sendingsOf,he]
  rfl

theorem sendingsOf_repeated {m : Message} {counts : History → Bool} (ht : event.Tries frame)
    (h : frame.isOf m = true → counts log = false) :
    sendingsOf m counts (event :: log) = sendingsOf m counts log := by
  rw [sendingsOf,ht.frame?_eq]
  refine if_neg ?_
  rw [Bool.and_eq_true]
  rintro ⟨hm,hc⟩
  cases (h hm).symm.trans hc

theorem sendingsOf_anew {m : Message} {counts : History → Bool} (ht : event.Tries frame)
    (hm : frame.isOf m = true) (hc : counts log = true) :
    sendingsOf m counts (event :: log) = sendingsOf m counts log + 1 := by
  rw [sendingsOf,ht.frame?_eq,Option.any_some,hm,hc]
  rfl

theorem lastTold_frame (ht : event.Tries frame) :
    lastTold told start (event :: log) = lastTold told start log := by
  cases ht <;> rfl

theorem Asks.sent (h : Asks query told start exact k log state) {j : Nat} (ht : event.Tries frame)
    (hj : exact → sendingsOf query.request (anew start query.request) (event :: log) = j) :
    Asks query told start exact j (event :: log) state := by
  refine ⟨?_,h.answer_eq.trans (lastTold_frame ht).symm,hj⟩
  cases ht <;> exact h.state_eq

/-- A frame that only repeats the request. -/
theorem Asks.repeated (h : Asks query told start exact k log state) (ht : event.Tries frame)
    (hf : exact → frame.isOf query.request = true → anew start query.request log = false) :
    Asks query told start exact k (event :: log) state :=
  h.sent ht fun he => (sendingsOf_repeated ht (hf he)).trans (h.sendings_eq he)

theorem unrecorded_iff : Unrecorded log ↔ log.any Event.isRecord = false := by
  rw [List.any_eq_false]
  constructor
  · intro hnew event hm hr
    unfold Event.isRecord at hr
    split at hr
    · next m => exact hnew m hm
    · cases hr
  · exact fun hnone m hm => hnone _ hm rfl

theorem anew_of_unsettled {m : Message} (hstart : start.outstanding = some m) (h : Unrecorded log)
    (hm : Session.isTracked m.kind = true ∨ (replay start log).outstanding = some m) :
    anew start m log = false := by
  have hheld : (Session.isTracked m.kind || decide ((replay start log).outstanding = some m)) = true := by
    rwa [Bool.or_eq_true,decide_eq_true_eq]
  rw [anew,unsettled,unrecorded_iff.mp h,hheld,hstart]
  simp

/-- Where no answer is missing, a message that a frame can hold is not just refused. -/
theorem refused_eq_false {m : Message} {n : UInt8} (hd : answerDue start log = false)
    (hf : m.frame n = .ok frame) : refused start m log = false := by
  rw [refused]
  cases log with
  | nil => rfl
  | cons event earlier =>
    cases event with
    | received other =>
      cases other with
      | nack =>
        refine Bool.eq_false_iff.mpr fun h => ?_
        rw [Bool.and_eq_true,decide_eq_true_eq] at h
        have ho : (replay start earlier).outstanding = some m := h.2
        have hr : ((replay start earlier).receive .nack).reply = some m := ho
        cases (answerDue_of_reply hr hf).symm.trans hd
      | _ => rfl
    | _ => rfl

theorem anew_of_record {m other : Message} (hr : refused start m log = false)
    (hm : .changed (.record other) ∈ log) : anew start m log = true := by
  have hrecorded : log.any Event.isRecord = true := List.any_eq_true.mpr ⟨_,hm,rfl⟩
  simp [anew,hr,unsettled,hrecorded]

theorem anew_of_untracked {m : Message} (hm : Session.isTracked m.kind = false)
    (ho : (replay start log).outstanding ≠ some m) : anew start m log = true := by
  simp [anew,refused,unsettled,hm,ho]

/-- Where the message is not outstanding from the start, only refusals have it repeated. -/
theorem anew_eq_not_refused {m : Message} (h : start.outstanding ≠ some m) :
    anew start m = fun earlier => !refused start m earlier := by
  funext earlier
  simp [anew,unsettled,h]

theorem told_eq_none (h : lastTold told start log = none) {m : Message} {earlier : History}
    (hs : .received m :: earlier <:+ log) : told (replay start earlier) m = none := by
  induction log with
  | nil => cases List.suffix_nil.mp hs
  | cons event log ih =>
    rcases List.suffix_cons_iff.mp hs with heq | hs
    · cases heq
      exact (Option.or_eq_none_iff.mp h).1
    · refine ih ?_ hs
      cases event with
      | received m => exact (Option.or_eq_none_iff.mp h).2
      | _ => exact h

theorem Asks.changed (hq : Understood query told) (h : Asks query told start exact k log state)
    {change : SessionChange} (hc : change ≠ query.forget) :
    Asks query told start exact k (.changed change :: log) (state.change change) := by
  refine ⟨?_,?_,fun he => (sendingsOf_cons rfl).trans (h.sendings_eq he)⟩
  · rw [h.state_eq]
    rfl
  · rw [hq.changed _ _ hc]
    exact h.answer_eq

theorem Asks.received (hq : Understood query told) (h : Asks query told start exact k log state)
    (m : Message) : Asks query told start exact k (.received m :: log) (state.receive m).state := by
  refine ⟨?_,?_,fun he => (sendingsOf_cons rfl).trans (h.sendings_eq he)⟩
  · rw [h.state_eq]
    rfl
  · rw [hq.received,h.answer_eq,lastTold,h.state_eq]

theorem keeps_asks (hq : Understood query told) : receiver.Keeps (Asks query told start exact k) where
  received := fun m h => h.received hq m
  replied := by
    intro log state m reply n frame event h hreply hf ht
    refine (h.received hq m).repeated ht fun _ hm => ?_
    have hrequest := (Frame.isOf_iff hf _).mp hm
    rcases reply_cases hreply with rfl | ⟨rfl,ho,-⟩
    · exact absurd (congrArg Message.kind hrequest).symm hq.request.1
    · have hrefused : refused start query.request (.received .nack :: log) = true := by
        have hnow : (replay start log).outstanding = some query.request := by
          rw [← h.state_eq,ho,hrequest]
        rw [refused,Bool.and_eq_true,decide_eq_true_eq]
        exact ⟨rfl,hnow⟩
      rw [anew,hrefused]
      rfl
  broke := fun _ h => ⟨h.state_eq,h.answer_eq,fun he => (sendingsOf_cons rfl).trans (h.sendings_eq he)⟩

end SessionState

end RemotePyMite
