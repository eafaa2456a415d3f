import RemotePyMite.Proofs.Session.Asking
import RemotePyMite.Proofs.Session.Triple

/-! # Reads are fresh

A read forgets what was told before it asks, so what it returns was told since: it is what the last
well-formed reply has told.  A read that gives up was told nothing and has sent its request once an attempt
(`read_fresh`).  While the session waits for what was outstanding from the start, that is sent again; if it
is the same request, the target gets it more often.
-/
namespace RemotePyMite.Session
open SessionState RemotePyMite.Action

variable {α : Type} {query : Query α} {told : SessionState → Message → Option α} {t : Session} {k : Nat}
  {I J : Bool → History → SessionState → Prop}

/-- A request can be told in the log from one that is left over.  Only one that is not tracked cannot, and
then only if it has been outstanding all the same, and is cleared between two steps of the call. -/
def Exact (query : Query α) (t : Session) : Prop :=
  isTracked query.request.kind = true ∨ t.state.outstanding ≠ some query.request ∨ t.meanwhile = []

/-- A session on which a call was begun when it was `t`. -/
abbrev Reading (t : Session) (I : Bool → History → SessionState → Prop) (s : Session) : Prop :=
  s.Meets (fun retries meanwhile => retries = t.retries ∧ (t.meanwhile = [] → meanwhile = []))
    t.channel.log I

/-- The request was sent `k` times on its own account, and no answer of the host is missing. -/
def Knows (query : Query α) (told : SessionState → Message → Option α) (t : Session) (k : Nat)
    (connected : Bool) (log : History) (state : SessionState) : Prop :=
  Prompt t.state connected log state ∧ Asks query told t.state (Exact query t) k log state

/-- If the message is outstanding, it has been so from the start. -/
def Held (m : Message) (log : History) (state : SessionState) : Prop :=
  ∀ other, state.outstanding = some other → other = m → Unrecorded log

/-- The request may be outstanding from the start, but the call has not made it so. -/
def Waits (query : Query α) (told : SessionState → Message → Option α) (t : Session) (k : Nat)
    (connected : Bool) (log : History) (state : SessionState) : Prop :=
  Knows query told t k connected log state ∧ Held query.request log state

/-- A wait has found the message outstanding; where something comes between two steps it may since have been
cleared. -/
def Looks (query : Query α) (told : SessionState → Message → Option α) (t : Session) (k : Nat) (m : Message)
    (connected : Bool) (log : History) (state : SessionState) : Prop :=
  Waits query told t k connected log state ∧
    (m = query.request → t.state.outstanding = some m ∧ Unrecorded log) ∧
    (t.meanwhile = [] → state.outstanding = some m)

/-- A read has failed; if it has run out of attempts, its request was sent in each of them and nothing was
told. -/
def FailsAsking (query : Query α) (told : SessionState → Message → Option α) (t : Session)
    (e : SessionError) (s : Session) : Prop :=
  s.Since t.channel.log fun log state => state = replay t.state log ∧
    ∀ attempts text, e = .timeout query.operation attempts text →
      attempts = t.retries ∧ Asks query told t.state (Exact query t) t.retries log state ∧
        query.answer state = none

/-- Nothing has been told so far. -/
def Untold (query : Query α) (told : SessionState → Message → Option α) (t : Session) (again : Bool)
    (k : Nat) (connected : Bool) (log : History) (state : SessionState) : Prop :=
  Knows query told t k connected log state ∧ query.answer state = none ∧
    (again = false → Held query.request log state)

/-- The answer was told last. -/
def Read (told : SessionState → Message → Option α) (start : SessionState) (x : α) (log : History)
    (state : SessionState) : Prop :=
  state = replay start log ∧ lastTold told start log = some x

theorem stable_reading (hI : receiver.Upholds I) : Stable (Reading t I) := by
  refine stable_meets ?_ hI
  rintro retries arrivals rest ⟨hr,hq⟩
  exact ⟨hr,fun hquiet => absurd (hq hquiet) (by simp)⟩

theorem Held.cons {m : Message} {log : History} {state : SessionState} {event : Event SessionChange}
    (h : Held m log state) (he : ∀ m, event ≠ .changed (.record m)) : Held m (event :: log) state :=
  fun other ho hm => unrecorded_cons he (h other ho hm)

theorem upholds_held (m : Message) : receiver.Upholds fun _ => Held m :=
  (keeps_outstanding (C := fun other log => other = m → Unrecorded log)
    fun he h hm => unrecorded_cons he (h hm)).upholds

/-- The answer is forgotten once it is read. -/
theorem asking_answered {x : α} {E : SessionError → Session → Prop} :
    Triple (fun s => Reading t (Knows query told t k) s ∧ some x = query.answer s.state)
      (update query.forget) (fun _ s => s.Since t.channel.log (Read told t.state x)) E := by
  rintro s ⟨⟨-,log,hl,-,hasks⟩,hx⟩
  refine ⟨trivial,.changed query.forget :: log,congrArg (_ :: ·) hl,?_,?_⟩
  · show s.state.change query.forget = (replay t.state log).change query.forget
    rw [← hasks.state_eq]
    rfl
  · exact hasks.answer_eq.symm.trans hx.symm

section query

variable (hq : Understood query told)

include hq

theorem upholds_knows : receiver.Upholds (Knows query told t k) :=
  (upholds_prompt t.state).and (keeps_asks hq).upholds

theorem upholds_waits : receiver.Upholds (Waits query told t k) :=
  (upholds_knows hq).and (upholds_held query.request)

theorem stable_looks (m : Message) : Stable (Reading t (Looks query told t k m)) := by
  by_cases hquiet : t.meanwhile = []
  · exact stable_quiet fun s hs => hs.1.2 hquiet
  · have hstart : receiver.Upholds fun _ log _ =>
        m = query.request → t.state.outstanding = some m ∧ Unrecorded log :=
      (keeps_log (C := fun log => m = query.request → t.state.outstanding = some m ∧ Unrecorded log)
        fun he h hm => ⟨(h hm).1,unrecorded_cons he (h hm).2⟩).upholds
    intro s hs
    have hkept := stable_reading ((upholds_waits hq).and hstart) s
      (Session.Meets.mono hs fun _ _ _ h => ⟨h.1,h.2.1⟩)
    exact Session.Meets.mono hkept fun _ _ _ h => ⟨h.1,h.2,fun hnone => absurd hnone hquiet⟩

theorem asking_update {change : SessionChange} (hc : change ≠ query.forget)
    (hI : ∀ connected log state, I connected log state → Knows query told t k connected log state)
    (hheld : ∀ connected log state, I connected log state →
      Held query.request (.changed change :: log) (state.change change))
    {E : SessionError → Session → Prop} :
    Triple (Reading t I) (update change) (fun _ => Reading t (Waits query told t k)) E := by
  refine Triple.update fun connected log state h => ⟨?_,hheld _ _ _ h⟩
  exact ⟨(hI _ _ _ h).1.change change,(hI _ _ _ h).2.changed hq hc⟩

omit hq in
theorem asking_transmit {m : Message}
    (hI : ∀ connected log state, I connected log state → state = replay t.state log)
    (hJ : receiver.Upholds J)
    (h : ∀ {log state n frame event}, I true log state → m.frame n = .ok frame → event.Tries frame →
      J true (event :: log) state) :
    Triple (Reading t I) (discard <| transmit m) (fun _ => Reading t J) (FailsAsking query told t) := by
  refine Triple.transmitOr hJ (keeps_replay t.state).upholds (fun hs hf => h hs hf .sent)
    (fun {events state _ _} hs _ => (hI true events state hs : state = replay t.state events))
    (fun hs _ => hI _ _ _ hs) fun e s he hs => ?_
  refine hs.since fun connected log state hs => ⟨hs,?_⟩
  rintro attempts text rfl
  cases he

/-- Waiting sends the request only if it has been outstanding from the start. -/
theorem asking_waitOutstanding :
    Triple (Reading t (Waits query told t k)) waitOutstanding
      (fun _ => Reading t fun connected log state =>
        Waits query told t k connected log state ∧ state.outstanding = none)
      (FailsAsking query told t) := by
  refine (Triple.waitOutstanding (A := fun m => Reading t (Looks query told t k m))
    (stable_reading (upholds_waits hq)) (stable_looks hq) ?_ ?_ fun m => ?_).post
      fun _ s hs => hs.1.and (χ := (·.outstanding = none)) hs.2
  · rintro e s ⟨-,log,hl,⟨-,hasks⟩,-⟩ hf
    refine ⟨trivial,log,hl,hasks.state_eq,?_⟩
    rintro attempts text rfl
    generalize ho : query.operation = operation at hf
    cases hf
    exact absurd ho hq.operation.1
  · rintro m s ⟨hr,log,hl,hwaits⟩ ho
    refine ⟨hr,log,hl,hwaits,fun hm => ?_,fun _ => ho⟩
    have hnew := hwaits.2 m ho hm
    have hreplay : (replay t.state log).outstanding = some m := hwaits.1.1.1 ▸ ho
    exact ⟨(recorded_of_replay hreplay).resolve_right (hnew m),hnew⟩
  · refine asking_transmit (fun _ _ _ h => h.1.1.1.1) (upholds_waits hq) ?_
    rintro log state n frame event ⟨⟨⟨hprompt,hasks⟩,hheld⟩,hstart,hstill⟩ hf ht
    refine ⟨⟨hprompt.frame ht,hasks.repeated ht fun hexact hm => ?_⟩,hheld.cons (by cases ht <;> simp)⟩
    have hrequest := (Frame.isOf_iff hf _).mp hm
    obtain ⟨ho,hnew⟩ := hstart hrequest
    rw [hrequest] at ho hstill
    refine anew_of_unsettled ho hnew (hexact.imp_right fun h => ?_)
    exact hprompt.1 ▸ hstill (h.resolve_left fun hne => hne ho)

theorem asking_sendSync (reset : Bool) :
    Triple (Reading t (Waits query told t k)) (discard <| transmit (.sync (.host reset)))
      (fun _ => Reading t (Waits query told t k)) (FailsAsking query told t) := by
  refine asking_transmit (fun _ _ _ h => h.1.1.1) (upholds_waits hq) ?_
  rintro log state n frame event ⟨⟨hprompt,hasks⟩,hheld⟩ hf ht
  refine ⟨⟨hprompt.frame ht,hasks.repeated ht fun _ hm => ?_⟩,hheld.cons (by cases ht <;> simp)⟩
  exact absurd (congrArg Message.kind ((Frame.isOf_iff hf _).mp hm)).symm hq.request.2

/-- The handshake sends no request on its own account. -/
theorem asking_synchronize :
    Triple (Reading t (Waits query told t k)) synchronize
      (fun _ => Reading t (Waits query told t k)) (FailsAsking query told t) := by
  have hwaits : Stable (Reading t (Waits query told t k)) := stable_reading (upholds_waits hq)
  have hbegin : Triple (Reading t (Waits query told t k)) (update .beginHandshake)
      (fun _ => Reading t (Waits query told t k)) (FailsAsking query told t) :=
    asking_update hq (hq.ne_forget (by simp)) (fun _ _ _ h => h.1) fun _ _ _ h => h.2.cons (by simp)
  have hgive : Triple (Reading t (Waits query told t k)) (update (.giveUp .sync))
      (fun _ => Reading t (Waits query told t k)) (FailsAsking query told t) := by
    refine asking_update hq (hq.ne_forget (by simp)) (fun _ _ _ h => h.1) fun _ log state h other ho hm => ?_
    rcases state.outstanding_dropOutstanding .sync with hd | hd
    · cases hd.symm.trans ho
    · exact unrecorded_cons (by simp) (h.2 other (hd.symm.trans ho) hm)
  have hrecord (reset : Bool) : Triple (Reading t fun connected log state =>
        Waits query told t k connected log state ∧ state.outstanding = none)
      (update (.record (.sync (.host reset)))) (fun _ => Reading t (Waits query told t k))
      (FailsAsking query told t) := by
    refine asking_update hq (hq.ne_forget (by simp)) (fun _ _ _ h => h.1.1) fun _ log state _ other ho hm => ?_
    cases ho
    exact absurd (congrArg Message.kind hm).symm hq.request.2
  have hfails {e : SessionError} {s : Session} (hs : Reading t (Waits query told t k) s)
      (he : ∀ attempts text, e ≠ .timeout query.operation attempts text) : FailsAsking query told t e s :=
    hs.since fun connected log state h => ⟨h.1.1.1,fun attempts text heq => absurd heq (he attempts text)⟩
  have hattempts (attempts : Nat) : Triple (Reading t (Waits query told t k))
      (attemptSync true attempts) (fun _ => Reading t (Waits query told t k)) (FailsAsking query told t) :=
    Triple.attemptSyncEach (H := fun _ _ => Reading t (Waits query told t k))
      (G := fun _ _ => Reading t (Waits query told t k))
      (F := fun _ _ => Reading t fun connected log state =>
        Waits query told t k connected log state ∧ state.outstanding = none)
      (T := fun _ _ => Reading t (Waits query told t k)) (S := fun _ => Reading t (Waits query told t k))
      (fun _ _ => hwaits) (fun _ _ => stable_reading (upholds_waits hq).free) (fun _ _ => hwaits)
      (fun _ => hwaits) (fun _ => hwaits) (fun _ _ => hgive) (fun _ _ => asking_waitOutstanding hq)
      (fun _ reset => hrecord reset) (fun _ reset => asking_sendSync hq reset)
      (fun _ _ hs _ => hs) (fun _ _ hs _ => hs) (fun _ _ _ hs _ => hfails hs (by simp))
      (fun _ _ hs => hfails hs (by simp [hq.operation.2.symm])) true attempts
  exact hbegin.step hwaits (Triple.tries hattempts)

/-- Where nothing is outstanding, the request is sent on its own account. -/
theorem asking_post :
    Triple (Reading t fun connected log state =>
        Waits query told t k connected log state ∧ state.outstanding = none) (post query.request)
      (fun _ => Reading t (Knows query told t (k + 1))) (FailsAsking query told t) := by
  have hcount {log : History} {state : SessionState} {n : UInt8} {frame : Frame}
      {event : Event SessionChange} (h : Knows query told t k true log state)
      (hf : query.request.frame n = .ok frame) (ht : event.Tries frame)
      (hanew : anew t.state query.request log = true) :
      Knows query told t (k + 1) true (event :: log) state := by
    refine ⟨h.1.frame ht,h.2.sent ht fun hexact => ?_⟩
    rw [sendingsOf_anew ht ((Frame.isOf_iff hf _).mpr rfl) hanew,h.2.sendings_eq hexact]
  let recorded (connected : Bool) (log : History) (state : SessionState) : Prop :=
    Knows query told t k connected log state ∧ .changed (.record query.request) ∈ log
  have hrecorded : receiver.Upholds recorded :=
    (upholds_knows hq).and (keeps_log (C := (.changed (.record query.request) ∈ ·))
      fun _ h => List.mem_cons_of_mem _ h).upholds
  refine Triple.postMessage (R := Reading t recorded) (stable_reading hrecorded) (fun _ => ?_)
    (fun _ => ?_) fun hm => ?_
  · refine Triple.update fun _ log state ⟨⟨⟨hprompt,hasks⟩,_⟩,_⟩ => ?_
    exact ⟨⟨hprompt.change _,hasks.changed hq (hq.ne_forget (by simp))⟩,List.mem_cons_self⟩
  · refine asking_transmit (fun _ _ _ h => h.1.1.1) (upholds_knows hq) ?_
    rintro log state n frame event ⟨h,hm⟩ hf ht
    exact hcount h hf ht (anew_of_record (refused_eq_false (h.1.2 rfl) hf) hm)
  · -- Without a record, it counts as new because nothing is outstanding.
    refine asking_transmit (fun _ _ _ h => h.1.1.1.1) (upholds_knows hq) ?_
    rintro log state n frame event ⟨⟨h,-⟩,ho⟩ hf ht
    refine hcount h hf ht (anew_of_untracked hm ?_)
    rw [← h.1.1,ho]
    simp

theorem asking_send :
    Triple (Reading t (Waits query told t k)) (send query.request)
      (fun _ => Reading t (Knows query told t (k + 1))) (FailsAsking query told t) :=
  Triple.send (stable_reading (upholds_waits hq)) (stable_reading (upholds_waits hq).free)
    (fun _ hs _ => hs)
    (fun _ => ((Triple.hear (stable_reading (upholds_waits hq))).bind fun _ => asking_synchronize hq).pre
      fun _ hs => hs.1)
    (asking_waitOutstanding hq) (asking_post hq)

/-- A request that is asked again is no longer outstanding. -/
theorem asking_again {E : SessionError → Session → Prop} :
    Triple (Reading t (Knows query told t k)) (update (.giveUp query.request.kind))
      (fun _ => Reading t (Waits query told t k)) E := by
  refine asking_update hq (hq.ne_forget (by simp)) (fun _ _ _ h => h) fun _ log state _ other ho hm => ?_
  have hkind := outstandingKind_giveUp state query.request.kind
  rw [outstandingKind,ho,hm] at hkind
  exact absurd rfl hkind

/-- With `n` attempts left, the request has been sent in each of the others. -/
theorem asking_ask (again : Bool) (attempts : Nat) :
    Triple (fun s => ∃ k, k + attempts = t.retries ∧ Reading t (Untold query told t again k) s)
      (ask query again attempts) (fun x s => s.Since t.channel.log (Read told t.state x))
      (FailsAsking query told t) := by
  refine Triple.ask
    (H := fun again attempts s => ∃ k, k + attempts = t.retries ∧ Reading t (Untold query told t again k) s)
    (A := fun attempts s => ∃ k, k + attempts = t.retries ∧ Reading t (Knows query told t k) s)
    (fun _ => .ofExists fun _ => (stable_const _).and (stable_reading (upholds_knows hq)))
    ?_ ?_ ?_ ?_ ?_ ?_ again attempts
  -- Only the first attempt can meet the request from before the call; each later one gives it up.
  · refine fun attempts => Triple.indexed 1 fun k hk => ⟨by omega,?_⟩
    refine Triple.pre ((Triple.hear (stable_reading (upholds_waits hq))).bind fun _ => asking_send hq) ?_
    exact fun s hs => Session.Meets.mono hs fun _ _ _ h => ⟨h.1,h.2.2 rfl⟩
  · refine fun attempts => Triple.indexed 1 fun k hk => ⟨by omega,?_⟩
    refine Triple.pre ((Triple.hear (stable_reading (upholds_knows hq))).bind fun _ =>
      (asking_again hq).step (stable_reading (upholds_waits hq)) (asking_send hq)) ?_
    exact fun s hs => Session.Meets.mono hs fun _ _ _ h => h.1
  · rintro _ reason s ⟨k,-,-,log,hl,hprompt,-⟩ -
    exact ⟨trivial,log,hl,hprompt.1,by simp⟩
  · rintro _ x s ⟨⟨k,-,hs⟩,hx⟩
    exact asking_answered (E := FailsAsking query told t) s ⟨hs,hx⟩
  · rintro attempts s ⟨k,hk,hs⟩ hnone
    refine ⟨k,hk,(hs.and (χ := (query.answer · = none)) hnone).mono ?_⟩
    exact fun _ log state h => ⟨h.1,h.2,nofun⟩
  · rintro again s ⟨k,hk,⟨hr,-⟩,log,hl,⟨hprompt,hasks⟩,hnone,-⟩
    refine ⟨trivial,log,hl,hprompt.1,?_⟩
    rintro attempts text ⟨⟩
    exact ⟨hr,(Nat.add_zero k).symm.trans hk ▸ hasks,hnone⟩

theorem asking_read (t : Session) :
    Triple (· = t) (read query) (fun x s => s.Since t.channel.log (Read told t.state x))
      (FailsAsking query told t) := by
  have hbegin : Triple (· = t) (update query.forget)
      (fun _ => Reading t (Untold query told t false 0)) (FailsAsking query told t) := by
    rintro _ rfl
    refine ⟨⟨rfl,id⟩,[.changed query.forget],rfl,⟨⟨rfl,fun _ => rfl⟩,rfl,hq.forgotten _,fun _ => rfl⟩,
      hq.forgotten _,fun _ _ _ _ => ?_⟩
    refine unrecorded_cons (fun m h => ?_) (by simp [Unrecorded])
    have hne : SessionChange.record m ≠ query.forget := hq.ne_forget (by simp)
    exact hne (Event.changed.inj h).symm
  refine hbegin.bind fun _ => (Triple.tries (asking_ask hq false)).pre fun s hs => ?_
  exact ⟨0,by rw [hs.1.1,Nat.zero_add],hs⟩

end query

/-- What a read comes to that leaves `run`: it gives what the target has told last since it began.  If it runs
out of attempts, the target has told nothing, and the request was sent once in each of them, apart from
refusals and, where it has been outstanding from the start, until that is settled; where it is not tracked
and yet outstanding, and something comes between the steps of the call, the two cannot be told apart. -/
def Fresh (query : Query α) (told : SessionState → Message → Option α) (s : Session)
    (run : Except SessionError α × Session) : Prop :=
  ∃ log, run.2.channel.log = log ++ s.channel.log ∧ run.2.state = replay s.state log ∧
    match run.1 with
    | .ok x => lastTold told s.state log = some x
    | .error (.timeout operation attempts _) => operation = query.operation →
        attempts = s.retries ∧
        (∀ m earlier, .received m :: earlier <:+ log → told (replay s.state earlier) m = none) ∧
        (Exact query s → sendingsOf query.request (anew s.state query.request) log = s.retries) ∧
        (s.state.outstanding ≠ some query.request →
          sendingsOf query.request (fun earlier => !refused s.state query.request earlier) log =
            s.retries)
    | .error _ => True

theorem fresh_read (hq : Understood query told) (s : Session) :
    Fresh query told s ((read query).run s) := by
  have hr := asking_read hq s s rfl
  split at hr
  · next x s' hrun =>
    rw [hrun]
    obtain ⟨-,log,hl,hs,hx⟩ := hr
    exact ⟨log,hl,hs,hx⟩
  · next e s' hrun =>
    rw [hrun]
    obtain ⟨-,log,hl,hs,he⟩ := hr
    refine ⟨log,hl,hs,?_⟩
    cases e with
    | timeout operation attempts text =>
      rintro rfl
      obtain ⟨hattempts,hasks,hnone⟩ := he attempts text rfl
      have huntold := hasks.answer_eq.symm.trans hnone
      refine ⟨hattempts,fun m earlier hs => told_eq_none huntold hs,hasks.sendings_eq,fun ho => ?_⟩
      rw [← anew_eq_not_refused ho]
      exact hasks.sendings_eq (.inr (.inl ho))
    | _ => trivial

/-- Whatever the state of a session and whatever its target does and whenever it is heard, a read of the
threads, the memory spaces or the autorun list gives what the last well-formed list of that kind tells that
has come in since the read began, the words of threads as wide as those of the target were known to be when
it came in.  A read that runs out of its attempts has met no such list, and has sent its request once an
attempt. -/
theorem read_fresh (s : Session) :
    Fresh .threads threadsTold s (readThreadList.run s) ∧
      Fresh .memory memoryTold s (readMemoryMap.run s) ∧
      Fresh .autorun autorunTold s (readAutorunList.run s) :=
  ⟨fresh_read understood_threads s,fresh_read understood_memory s,fresh_read understood_autorun s⟩

/-- A target that does the handshake and then only acknowledges the third request for its memory spaces.
The first read leaves its request outstanding; the second sends it once to settle that and then once in
each of its two attempts. -/
theorem read_fresh_settling :
    let ack : Bytes := (Frame.mk 0 1 []).bytes
    let parameters : SyncParameters := ⟨false,20,4,SyncParameters.padId [109]⟩
    let sync : Bytes := (Frame.mk 0 3 parameters.toBytes).bytes
    let target := Target.scripted [⟨[ack,sync],false⟩,.silent,.silent,⟨[ack],false⟩]
    let s := (readMemoryMap.run (synchronize.run (ofLink (.ofTarget target) 2)).2).2
    let run := readMemoryMap.run s
    s.retries = 2 ∧ s.state.outstanding = some (.memList .request) ∧
      run.1 = .error (.timeout .readMemoryMap 2 (some (Message.memList .request).text)) ∧
      ∃ log, run.2.channel.log = log ++ s.channel.log ∧
        sendingsOf (.memList .request) (fun earlier => !refused s.state (.memList .request) earlier)
          log = 3 := by
  intro ack parameters sync target s run
  have herror : (match run.1 with | .error e => some e | .ok _ => none) =
      some (.timeout .readMemoryMap 2 (some (Message.memList .request).text)) := by decide +kernel
  have hrun : run.1 = .error (.timeout .readMemoryMap 2 (some (Message.memList .request).text)) := by
    split at herror
    · next e he => rw [he,Option.some.inj herror]
    · cases herror
  refine ⟨by decide +kernel,by decide +kernel,hrun,?_⟩
  refine ⟨run.2.channel.log.take (run.2.channel.log.length - s.channel.log.length),?_,?_⟩ <;>
    decide +kernel

end RemotePyMite.Session
