import RemotePyMite.Proofs.Session.Answer
import RemotePyMite.Proofs.Session.Steady

/-! # The course of a call

A call makes a message outstanding only where none is, sends nothing but answers, the outstanding
message and messages that are never outstanding, and takes an outstanding message away only to put
another in its place.  `Course` lists what may happen next; that every call follows it is shown from
the actions up.
-/
namespace RemotePyMite
open SessionState

namespace Session

/-- A change that leaves the outstanding message alone. -/
def Harmless (state : SessionState) : SessionChange → Prop
  | .record _ => False
  | .giveUp kind => state.outstandingKind ≠ some kind
  | _ => True

/-- What may happen, from a moment with the history `base` on, in a call that sends the messages
`own` and asks again with `request`. -/
inductive Course (own : Message → Prop) (request : Option Message) (base : History) : History → Prop
  | start : Course own request base []
  | received {log : History} (h : Course own request base log) (m : Message) :
      Course own request base (.received m :: log)
  | broke {log : History} (h : Course own request base log) (reason : String) :
      Course own request base (.broke reason :: log)
  | changed {log : History} {change : SessionChange} (h : Course own request base log)
      (hc : Harmless (after (log ++ base)) change) : Course own request base (.changed change :: log)
  /-- A message of the target is answered by an acknowledgment or the outstanding message. -/
  | answered {log : History} {m reply : Message} {n : UInt8} {frame : Frame}
      {event : Event SessionChange} (h : Course own request base (.received m :: log))
      (hr : ((after (log ++ base)).receive m).reply = some reply) (hf : reply.frame n = .ok frame)
      (ht : event.Tries frame) : Course own request base (event :: .received m :: log)
  /-- The outstanding message is sent again. -/
  | again {log : History} {m : Message} {n : UInt8} {frame : Frame} {event : Event SessionChange}
      (h : Course own request base log) (ho : (after (log ++ base)).outstanding = some m)
      (hf : m.frame n = .ok frame) (ht : event.Tries frame) : Course own request base (event :: log)
  | record {log : History} {m : Message} (h : Course own request base log)
      (ho : (after (log ++ base)).outstanding = none) (hm : isTracked m.kind = true)
      (hown : own m) :
      Course own request base (.changed (.record m) :: log)
  /-- The parameters of the host take the place of those it has told before. -/
  | resync {log : History} {old : SyncParameters} {reset : Bool} (h : Course own request base log)
      (ho : (after (log ++ base)).outstanding = some (.sync old)) (hown : own (.sync (.host reset))) :
      Course own request base
        (.changed (.record (.sync (.host reset))) :: .changed (.giveUp .sync) :: log)
  /-- A request takes the place of itself. -/
  | retry {log : History} {m : Message} (h : Course own request base log)
      (ho : (after (log ++ base)).outstanding = some m) (hm : .changed (.record m) ∈ log)
      (hr : request = some m) :
      Course own request base (.changed (.record m) :: .changed (.giveUp m.kind) :: log)
  /-- A message is sent when it has become the outstanding one. -/
  | first {log : History} {m : Message} {n : UInt8} {frame : Frame} {event : Event SessionChange}
      (h : Course own request base (.changed (.record m) :: log)) (hf : m.frame n = .ok frame)
      (ht : event.Tries frame) : Course own request base (event :: .changed (.record m) :: log)
  /-- A message is sent that is never the outstanding one. -/
  | untracked {log : History} {m : Message} {n : UInt8} {frame : Frame} {event : Event SessionChange}
      (h : Course own request base log) (ho : (after (log ++ base)).outstanding = none)
      (hm : isTracked m.kind = false) (hown : own m) (hf : m.frame n = .ok frame)
      (ht : event.Tries frame) : Course own request base (event :: log)

variable {own : Message → Prop} {request : Option Message} {base log : History}

/-- A part of a course from its start on: a course, or one without the message that takes the place
of the one just taken away. -/
def PartOf (own : Message → Prop) (request : Option Message) (base log past : History) : Prop :=
  Course own request base past ∨ ∃ m kind earlier, past = .changed (.giveUp kind) :: earlier ∧
    .changed (.record m) :: past <:+ log ∧ Course own request base (.changed (.record m) :: past)

variable {past : History}

theorem PartOf.cons (h : PartOf own request base log past) (event : Event SessionChange) :
    PartOf own request base (event :: log) past := by
  refine h.imp_right ?_
  rintro ⟨m,kind,earlier,hp,hl,hc⟩
  exact ⟨m,kind,earlier,hp,hl.trans (List.suffix_cons _ _),hc⟩

theorem Course.partOf_cons {event : Event SessionChange} (h : Course own request base (event :: log))
    (ih : past <:+ log → PartOf own request base log past) (hs : past <:+ event :: log) :
    PartOf own request base (event :: log) past := by
  rcases List.suffix_cons_iff.mp hs with rfl | hs
  · exact .inl h
  · exact (ih hs).cons event

theorem Course.partOf_replace {m : Message} {kind : Kind}
    (h : Course own request base (.changed (.record m) :: .changed (.giveUp kind) :: log))
    (ih : past <:+ log → PartOf own request base log past)
    (hs : past <:+ .changed (.record m) :: .changed (.giveUp kind) :: log) :
    PartOf own request base (.changed (.record m) :: .changed (.giveUp kind) :: log) past := by
  rcases List.suffix_cons_iff.mp hs with rfl | hs
  · exact .inl h
  · rcases List.suffix_cons_iff.mp hs with rfl | hs
    · exact .inr ⟨m,kind,log,rfl,List.suffix_refl _,h⟩
    · exact ((ih hs).cons _).cons _

theorem Course.partOf (h : Course own request base log) (hs : past <:+ log) :
    PartOf own request base log past := by
  induction h with
  | start => exact .inl (List.suffix_nil.mp hs ▸ .start)
  | received h m ih => exact (h.received m).partOf_cons ih hs
  | broke h reason ih => exact (h.broke reason).partOf_cons ih hs
  | changed h hc ih => exact (h.changed hc).partOf_cons ih hs
  | answered h hr hf ht ih => exact (h.answered hr hf ht).partOf_cons ih hs
  | again h ho hf ht ih => exact (h.again ho hf ht).partOf_cons ih hs
  | record h ho hm hown ih => exact (h.record ho hm hown).partOf_cons ih hs
  | resync h ho hown ih => exact (h.resync ho hown).partOf_replace ih hs
  | retry h ho hm hr ih => exact (h.retry ho hm hr).partOf_replace ih hs
  | first h hf ht ih => exact (h.first hf ht).partOf_cons ih hs
  | untracked h ho hm hown hf ht ih => exact (h.untracked ho hm hown hf ht).partOf_cons ih hs

theorem Course.of_record_suffix {m : Message} {earlier : History} (h : Course own request base log)
    (hs : .changed (.record m) :: earlier <:+ log) :
    Course own request base (.changed (.record m) :: earlier) := by
  rcases h.partOf hs with hc | ⟨_,_,_,he,-⟩
  · exact hc
  · cases he

theorem Course.of_frame_suffix {frame : Frame} {event : Event SessionChange} {earlier : History}
    (h : Course own request base log) (ht : event.Tries frame) (hs : event :: earlier <:+ log) :
    Course own request base (event :: earlier) := by
  rcases h.partOf hs with hc | ⟨_,_,_,he,-⟩
  · exact hc
  · cases he
    cases ht

theorem Course.outstanding_of_record {m : Message}
    (h : Course own request base (.changed (.record m) :: log)) :
    (after (log ++ base)).outstanding = none := by
  cases h with
  | changed h hc => exact hc.elim
  | record h ho hm hown => exact ho
  | resync h ho hown => exact outstanding_giveUp ho
  | retry h ho hm hr => exact outstanding_giveUp ho
  | answered _ _ _ ht | again _ _ _ ht | first _ _ ht | untracked _ _ _ _ _ ht => cases ht

/-- Only a message that the call sends and that waits for an acknowledgment becomes outstanding. -/
theorem Course.begun_of_mem (h : Course own request base log) {m : Message}
    (hm : .changed (.record m) ∈ log) : own m ∧ isTracked m.kind = true := by
  obtain ⟨later,earlier,rfl⟩ := List.append_of_mem hm
  have hc := h.of_record_suffix (List.suffix_append _ _)
  clear h hm later
  -- A request that takes its own place was recorded before, so the induction is on what came before.
  generalize hl : earlier.length = length
  induction length using Nat.strongRecOn generalizing earlier with
  | ind length ih =>
    cases hc with
    | changed h hc => exact hc.elim
    | record h ho hm hown => exact ⟨hown,hm⟩
    | resync h ho hown => exact ⟨hown,rfl⟩
    | @retry log _ h ho hm hr =>
      obtain ⟨later,older,rfl⟩ := List.append_of_mem hm
      refine ih older.length ?_ older (h.of_record_suffix (List.suffix_append _ _)) rfl
      rw [← hl]
      simp
      omega
    | answered _ _ _ ht | again _ _ _ ht | first _ _ ht | untracked _ _ _ _ _ ht => cases ht

/-- A message that is taken away before it was acknowledged makes room for another at once: for the
parameters of the host if it told these, or for itself if the call has asked with it. -/
theorem Course.replaced (h : Course own request base log) {kind : Kind} {old : Message}
    {earlier : History} (hs : .changed (.giveUp kind) :: earlier <:+ log)
    (ho : (after (earlier ++ base)).outstanding = some old) (hk : old.kind = kind) :
    ∃ new, .changed (.record new) :: .changed (.giveUp kind) :: earlier <:+ log ∧
      ((∃ p reset, old = .sync p ∧ new = .sync (.host reset)) ∨
        new = old ∧ request = some old ∧ .changed (.record old) ∈ earlier) := by
  have hdrop : (after (earlier ++ base)).outstandingKind = some kind := by
    rw [outstandingKind,ho,Option.map_some,hk]
  have hnot : ¬Course own request base (.changed (.giveUp kind) :: earlier) := by
    intro hc
    cases hc with
    | changed h hc => exact hc hdrop
    | answered _ _ _ ht | again _ _ _ ht | first _ _ ht | untracked _ _ _ _ _ ht => cases ht
  rcases h.partOf hs with hc | ⟨new,kind',earlier',he,hl,hc⟩
  · exact absurd hc hnot
  · cases he
    refine ⟨new,hl,?_⟩
    cases hc with
    | changed h hc => exact absurd h hnot
    | record h ho hm hown => exact absurd h hnot
    | @resync _ p reset h ho' hown =>
      cases ho.symm.trans ho'
      exact .inl ⟨p,reset,rfl,rfl⟩
    | retry h ho' hm hr =>
      cases ho.symm.trans ho'
      exact .inr ⟨rfl,hr,hm⟩
    | again _ _ _ ht | untracked _ _ _ _ _ ht => cases ht

/-- The last event is a message that is answered by an acknowledgment. -/
def Acknowledges (base earlier : History) : Prop :=
  ∃ m older, earlier = .received m :: older ∧
    ((after (older ++ base)).receive m).reply = some .ack

/-- What a frame that is sent carries: an answer, the outstanding message, or a message of the call
that is never outstanding. -/
theorem Course.exists_of_frame {frame : Frame} {event : Event SessionChange}
    (h : Course own request base (event :: log)) (ht : event.Tries frame) :
    ∃ m n, m.frame n = .ok frame ∧
      ((m = .ack ∧ Acknowledges base log) ∨ (after (log ++ base)).outstanding = some m ∨
        (own m ∧ isTracked m.kind = false ∧ (after (log ++ base)).outstanding = none)) := by
  have hsame {other : Frame} (hother : event.Tries other) : other = frame :=
    Option.some.inj (hother.frame?_eq.symm.trans ht.frame?_eq)
  cases h with
  | received | broke | changed | record | resync | retry => cases ht
  | @answered log k reply n _ _ h hr hf hother =>
    cases hsame hother
    refine ⟨reply,n,hf,?_⟩
    rcases reply_receive hr with rfl | ⟨ho,hstate⟩
    · exact .inl ⟨rfl,k,log,rfl,hr⟩
    · have hkept : after (.received k :: log ++ base) = after (log ++ base) := hstate
      exact .inr (.inl (hkept ▸ ho))
  | again h ho hf hother =>
    cases hsame hother
    exact ⟨_,_,hf,.inr (.inl ho)⟩
  | first h hf hother =>
    cases hsame hother
    exact ⟨_,_,hf,.inr (.inl rfl)⟩
  | untracked h ho hm hown hf hother =>
    cases hsame hother
    exact ⟨_,_,hf,.inr (.inr ⟨hown,hm,ho⟩)⟩

/-- The call is on course, and the state is what the events make of it. -/
structure OnCourse (own : Message → Prop) (request : Option Message) (base log : History)
    (state : SessionState) : Prop where
  course : Course own request base log
  state_eq : state = after (log ++ base)

theorem OnCourse.received {state : SessionState} (h : OnCourse own request base log state) (m : Message) :
    OnCourse own request base (.received m :: log) (state.receive m).state :=
  ⟨h.course.received m,by rw [h.state_eq]; rfl⟩

theorem OnCourse.frame {state : SessionState} {frame : Frame} {event : Event SessionChange}
    (h : OnCourse own request base log state) (ht : event.Tries frame)
    (hc : Course own request base (event :: log)) : OnCourse own request base (event :: log) state :=
  ⟨hc,by cases ht <;> exact h.state_eq⟩

theorem keeps_onCourse : SessionState.receiver.Keeps (OnCourse own request base) where
  received := fun m h => h.received m
  replied := fun m _ _ _ _ h hr hf ht =>
    (h.received m).frame ht ((h.received m).course.answered (h.state_eq ▸ hr) hf ht)
  broke := fun reason h => ⟨h.course.broke reason,h.state_eq⟩

end Session

end RemotePyMite
