import RemotePyMite.Proofs.Session.Turn

/-! # One outstanding message at a time

A turn makes a message outstanding only where none is.  A message that is taken away before the target
has acknowledged it makes room for another at once, and only where the host tells its parameters anew
or a read asks again.
-/
namespace RemotePyMite
open SessionState RemotePyMite.Action

namespace Session

/-- What an event of a turn does to the outstanding message; `log` is all that happens in the turn. -/
inductive SlotStep (turn : Turn) (base log earlier : History) : Event SessionChange → Prop
  | kept {event : Event SessionChange} (hr : ∀ m, event ≠ .changed (.record m))
      (h : (after (event :: earlier ++ base)).outstanding = (after (earlier ++ base)).outstanding) :
      SlotStep turn base log earlier event
  | cleared {m : Message} (h : (after (.received m :: earlier ++ base)).outstanding = none) :
      SlotStep turn base log earlier (.received m)
  | begun {m : Message} (ho : (after (earlier ++ base)).outstanding = none) (hs : turn.Sends m) :
      SlotStep turn base log earlier (.changed (.record m))
  /-- The host tells its parameters anew. -/
  | resync {old : SyncParameters} {reset : Bool}
      (ho : (after (earlier ++ base)).outstanding = some (.sync old))
      (hn : .changed (.record (.sync (.host reset))) :: .changed (.giveUp .sync) :: earlier <:+ log) :
      SlotStep turn base log earlier (.changed (.giveUp .sync))
  /-- A read asks again with what it has asked already. -/
  | retry {m : Message} (ht : turn = .call .readMemoryMap ∨ turn = .call .readAutorunList)
      (hr : turn.request? = some m) (ho : (after (earlier ++ base)).outstanding = some m)
      (hm : .changed (.record m) ∈ earlier)
      (hn : .changed (.record m) :: .changed (.giveUp m.kind) :: earlier <:+ log) :
      SlotStep turn base log earlier (.changed (.giveUp m.kind))

/-- Why a message is sent after the events `earlier` of a turn. -/
inductive SendReason (turn : Turn) (base earlier : History) : Message → Prop
  | answer (h : Acknowledges base earlier) : SendReason turn base earlier .ack
  | outstanding {m : Message} (ho : (after (earlier ++ base)).outstanding = some m) :
      SendReason turn base earlier m
  | untracked {m : Message} (hs : turn.Sends m) (hm : isTracked m.kind = false)
      (ho : (after (earlier ++ base)).outstanding = none) : SendReason turn base earlier m

/-- The outstanding message during a turn. -/
structure OneOutstanding (turn : Turn) (base log : History) : Prop where
  steps : ∀ event earlier, event :: earlier <:+ log → SlotStep turn base log earlier event
  sends : ∀ frame event earlier, event.Tries frame → event :: earlier <:+ log →
    ∃ m n, m.frame n = .ok frame ∧ SendReason turn base earlier m
  kinds : ∀ past m, past <:+ log ++ base → (after past).outstanding = some m →
    m.kind ≠ .ack ∧ m.kind ≠ .nack ∧ m.kind ≠ .threadList
  /-- What is no longer outstanding is so again only if a call has begun with it anew. -/
  anew : ∀ later past m, later ++ past <:+ log ++ base → (after past).outstanding ≠ some m →
    (after (later ++ past)).outstanding = some m → .changed (.record m) ∈ later

variable {own : Message → Prop} {request : Option Message} {base log : History} {turn : Turn}
  {s : Session}

theorem Turn.eq_of_request? {m : Message} (h : turn.request? = some m) (hm : isTracked m.kind = true) :
    turn = .call .readMemoryMap ∨ turn = .call .readAutorunList := by
  cases turn with
  | write chunks => cases h
  | close => cases h
  | call c =>
    cases c with
    | readThreadList =>
      cases h
      cases hm
    | readMemoryMap => exact .inl rfl
    | readAutorunList => exact .inr rfl
    | _ => cases h

theorem Course.slotStep (h : Course (turn.Sends ·) turn.request? base log) {event : Event SessionChange}
    {earlier : History} (hs : event :: earlier <:+ log) : SlotStep turn base log earlier event := by
  cases event with
  | sent frame | unsent frame => exact .kept (by simp) rfl
  | broke reason => exact .kept (by simp) rfl
  | received m =>
    rcases (after (earlier ++ base)).outstanding_receive m with hr | hr
    · exact .cleared hr
    · exact .kept (by simp) hr
  | changed change =>
    cases change with
    | record m =>
      have hc := h.of_record_suffix hs
      exact .begun hc.outstanding_of_record (hc.begun_of_mem List.mem_cons_self).1
    | giveUp kind =>
      by_cases hk : (after (earlier ++ base)).outstandingKind = some kind
      · obtain ⟨old,ho,rfl⟩ := Option.map_eq_some_iff.mp hk
        obtain ⟨new,hn,⟨p,reset,rfl,rfl⟩ | ⟨rfl,hr,hm⟩⟩ := h.replaced hs ho rfl
        · exact .resync ho hn
        · have hc := h.of_record_suffix hn
          have ht := (hc.begun_of_mem List.mem_cons_self).2
          exact .retry (Turn.eq_of_request? hr ht) hr ho hm hn
      · exact .kept (by simp) (outstanding_of_harmless hk)
    | _ => exact .kept (by simp) rfl

theorem Course.sendReason (h : Course (turn.Sends ·) turn.request? base log) {frame : Frame}
    {event : Event SessionChange} {earlier : History} (ht : event.Tries frame)
    (hs : event :: earlier <:+ log) : ∃ m n, m.frame n = .ok frame ∧ SendReason turn base earlier m := by
  obtain ⟨m,n,hf,⟨rfl,hack⟩ | ho | ⟨hsends,hm,ho⟩⟩ := (h.of_frame_suffix ht hs).exists_of_frame ht
  · exact ⟨.ack,n,hf,.answer hack⟩
  · exact ⟨m,n,hf,.outstanding ho⟩
  · exact ⟨m,n,hf,.untracked hsends hm ho⟩

/-- The parameters of the host go before a message that waits for the handshake. -/
def Precedes (k m : Message) : Prop :=
  m.kind ≠ .sync ∧ ∃ reset, k = .sync (.host reset)

/-- Nothing has happened with `m` itself: what was sent are answers, what was outstanding before and
what goes before it. -/
def Withheld (m : Message) (base log : History) : Prop :=
  .changed (.record m) ∉ log ∧ ∀ frame event earlier, event.Tries frame → event :: earlier <:+ log →
    ∃ k n, k.frame n = .ok frame ∧ (k = .ack ∧ Acknowledges base earlier ∨
      (after (earlier ++ base)).outstanding = some k ∧
        ((after base).outstanding = some k ∨ Precedes k m))

theorem Course.withheld {m : Message} (h : Course (Precedes · m) request base log) :
    Withheld m base log := by
  refine ⟨?_,?_⟩
  · intro hm
    obtain ⟨⟨hk,reset,rfl⟩,-⟩ := h.begun_of_mem hm
    exact hk rfl
  · intro frame event earlier ht hs
    have hc := h.of_frame_suffix ht hs
    obtain ⟨k,n,hf,⟨rfl,hack⟩ | ho | ⟨⟨-,reset,rfl⟩,hk,-⟩⟩ := hc.exists_of_frame ht
    · exact ⟨.ack,n,hf,.inl ⟨rfl,hack⟩⟩
    · refine ⟨k,n,hf,.inr ⟨ho,?_⟩⟩
      -- It was outstanding before the call, or the call has recorded it, and that is no `m`.
      refine (recorded_between ho).imp_right fun hk => ?_
      exact (hc.begun_of_mem (List.mem_cons_of_mem _ hk)).1
    · cases hk

/-- Recording a message and sending it take no time. -/
theorem post_not_timeout (m : Message) (base : History) :
    Triple (Session.Meets Quiet base fun _ _ _ => True) (post m)
      (fun _ => Session.Meets Quiet base fun _ _ _ => True) (fun e _ => e.isTimeout = false) := by
  have hsent : Triple (Session.Meets Quiet base fun _ _ _ => True) (discard <| transmit m)
      (fun _ => Session.Meets Quiet base fun _ _ _ => True) (fun e _ => e.isTimeout = false) :=
    Triple.transmit (upholds_true _) (upholds_true _) (fun _ _ _ => trivial) fun _ _ he _ => he
  exact Triple.postMessage (stable_quiet fun _ hs => hs.1) (fun _ => Triple.update fun _ _ _ _ => trivial)
    (fun _ => hsent) fun _ => hsent

theorem Sound.withheld (h : Sound s) {m : Message} {e : SessionError} {s' : Session}
    (hrun : (send m).run s = (.error e,s')) (he : e.isTimeout = true) :
    ∃ log, s'.channel.log = log ++ s.channel.log ∧ Withheld m s.channel.log log := by
  have hsend : Triple (Runs (Precedes · m) none s.channel.log fun _ _ => True) (send m) (fun _ _ => True)
      (fun e s' => e.isTimeout = true → Fails (Precedes · m) none s.channel.log e s') := by
    refine triple_send_of ?_ (fun _ _ hs _ => hs) ?_
    · intro hneeds reset
      refine ⟨?_,reset,rfl⟩
      intro hk
      rw [hk] at hneeds
      cases hneeds
    -- All waiting comes first, so what is done with the message itself cannot run out of time.
    · refine ((post_not_timeout m s.channel.log).mono ?_ fun _ _ _ => trivial).error ?_
      · exact fun _ hs => Session.Meets.mono hs fun _ _ _ _ => trivial
      · intro e _ he htimeout
        cases he.symm.trans htimeout
  have hr := hsend s h.runs
  rw [hrun] at hr
  obtain ⟨-,log,hl,hc,-⟩ := hr he
  exact ⟨log,hl,hc.course.withheld⟩

/-- A message that comes in leaves the outstanding one or clears it, and nothing is sent for it but an
acknowledgment or the message that is outstanding. -/
structure Handled (m : Message) (before now : Channel SessionState SessionChange) : Prop where
  outstanding : now.receiver.outstanding = none ∨
    now.receiver.outstanding = before.receiver.outstanding
  sends : now.log = .received m :: before.log ∨
    ∃ reply n frame event, now.log = event :: .received m :: before.log ∧ event.Tries frame ∧
      reply.frame n = .ok frame ∧ (reply = .ack ∨ before.receiver.outstanding = some reply ∧
        now.receiver.outstanding = some reply)

theorem handled_dispatch (m : Message) (c : Channel SessionState SessionChange) :
    Handled m c (c.dispatch receiver m) := by
  obtain ⟨hreceiver,-,hlog⟩ := Channel.dispatch_cases receiver c m
  refine ⟨?_,hlog.imp And.left ?_⟩
  · rw [hreceiver]
    exact c.receiver.outstanding_receive m
  · rintro ⟨-,reply,n,frame,event,hreply,hf,ht,hlog⟩
    refine ⟨reply,n,frame,event,hlog,ht,hf,(reply_receive hreply).imp_right fun h => ⟨h.1,?_⟩⟩
    rw [hreceiver]
    exact (congrArg outstanding h.2).trans h.1

theorem Sound.oneOutstanding (h : Sound s) (turn : Turn) :
    ∃ log, (turn.run s).channel.log = log ++ s.channel.log ∧
      OneOutstanding turn s.channel.log log := by
  obtain ⟨-,log,hl,hc,-⟩ := h.turn turn
  refine ⟨log,hl,fun _ _ => hc.course.slotStep,fun _ _ _ => hc.course.sendReason,?_,?_⟩
  · intro past m hs ho
    have hm : .changed (.record m) ∈ (turn.run s).channel.log := by
      rw [hl]
      exact hs.subset (recorded_of_outstanding ho)
    have htracked := (h.next turn).tracked m hm
    simpa [isTracked,and_assoc] using htracked
  · intro later past m _ hfree ho
    exact (recorded_between ho).resolve_left hfree

/-- Over every run of a session in which messages are handled behind what the host sends and between its
calls, at most one message is outstanding, and it gives way to another only where the host tells its
parameters anew or a read asks again.  A message that could not be sent in time has neither become
outstanding nor been sent. -/
theorem exists_oneOutstanding (link : Link) (retries : Nat) (turns : List Turn) (turn : Turn) :
    let s := play (ofLink link retries) turns
    (∃ log, (turn.run s).channel.log = log ++ s.channel.log ∧
      (turn.run s).state = after (log ++ s.channel.log) ∧ OneOutstanding turn s.channel.log log) ∧
    (∀ m operation attempts text s', (send m).run s = (.error (.timeout operation attempts text),s') →
      ∃ log, s'.channel.log = log ++ s.channel.log ∧ Withheld m s.channel.log log) ∧
    ∀ m c, Handled m c (c.dispatch receiver m) := by
  intro s
  have hs : Sound s := (sound_ofLink link retries).play turns
  obtain ⟨log,hl,hone⟩ := hs.oneOutstanding turn
  refine ⟨⟨log,hl,?_,hone⟩,fun m _ _ _ s' hrun => hs.withheld hrun rfl,handled_dispatch⟩
  rw [← hl]
  exact (hs.next turn).state_eq

end Session

end RemotePyMite
