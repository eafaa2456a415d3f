import RemotePyMite.Proofs.Session.Course
import RemotePyMite.Proofs.Session.Triple

/-! # Every call keeps to its course

Each action of a call keeps the course, also where it fails.  Nothing is taken in here between the steps of
a call, but only behind what it sends.
-/
namespace RemotePyMite.Session
open SessionState RemotePyMite.Action

variable {own : Message → Prop} {request : Option Message} {base : History}
  {ψ φ : History → SessionState → Prop} {m : Message}

/-- Nothing will come between the steps of the calls. -/
def Quiet (_ : Nat) (meanwhile : List (List Arrival)) : Prop :=
  meanwhile = []

/-- A session on the course of a call, of which `ψ` holds. -/
def Runs (own : Message → Prop) (request : Option Message) (base : History)
    (ψ : History → SessionState → Prop) : Session → Prop :=
  Session.Meets Quiet base fun _ log state => OnCourse own request base log state ∧ ψ log state

/-- A call that fails has kept its course too. -/
def Fails (own : Message → Prop) (request : Option Message) (base : History) (_ : SessionError) :
    Session → Prop :=
  Runs own request base fun _ _ => True

theorem Runs.mono {s : Session} (h : Runs own request base ψ s)
    (hψ : ∀ log state, ψ log state → φ log state) : Runs own request base φ s :=
  Session.Meets.mono h fun _ _ _ hs => ⟨hs.1,hψ _ _ hs.2⟩

theorem Runs.and {s : Session} (h : Runs own request base ψ s) {χ : SessionState → Prop}
    (hχ : χ s.state) : Runs own request base (fun log state => ψ log state ∧ χ state) s :=
  (Session.Meets.and h hχ).mono fun _ _ _ hs => ⟨hs.1.1,hs.1.2,hs.2⟩

theorem Runs.fails {s : Session} (h : Runs own request base ψ s) (e : SessionError) :
    Fails own request base e s :=
  h.mono fun _ _ _ => trivial

theorem stable_runs : Stable (Runs own request base ψ) :=
  stable_quiet fun _ hs => hs.1

theorem Steady.upholds (h : Steady ψ) : SessionState.receiver.Upholds fun _ log state =>
    OnCourse own request base log state ∧ ψ log state :=
  keeps_onCourse.upholds.and h.keeps.upholds

theorem Runs.settle {s : Session} (h : Runs own request base ψ s) (hψ : Steady ψ) :
    Runs own request base ψ { s with channel := s.channel.settle SessionState.receiver } :=
  Session.Meets.settle h hψ.upholds

theorem outstanding_of_harmless {state : SessionState} {change : SessionChange}
    (h : Harmless state change) : (state.change change).outstanding = state.outstanding := by
  cases change with
  | record m => exact h.elim
  | giveUp kind => exact congrArg SessionState.outstanding (if_neg h)
  | _ => rfl

theorem runs_update {change : SessionChange} {E : SessionError → Session → Prop}
    (hc : ∀ log state, ψ log state → Harmless state change)
    (hψ : ∀ log state, ψ log state → φ (.changed change :: log) (state.change change)) :
    Triple (Runs own request base ψ) (update change) (fun _ => Runs own request base φ) E := by
  refine Triple.update fun connected log state h => ⟨⟨?_,by rw [h.1.state_eq]; rfl⟩,hψ _ _ h.2⟩
  exact h.1.course.changed (h.1.state_eq ▸ hc log state h.2)

/-- A message is sent where the course allows it. -/
theorem runs_transmit {I : Bool → History → SessionState → Prop} (hψ : Steady ψ)
    (hI : ∀ connected log state, I connected log state → OnCourse own request base log state)
    (h : ∀ {log state n frame event}, I true log state → m.frame n = .ok frame → event.Tries frame →
      Course own request base (event :: log) ∧ ψ (event :: log) state) :
    Triple (Session.Meets Quiet base I) (discard <| transmit m) (fun _ => Runs own request base ψ)
      (Fails own request base) := by
  have hframe {log : History} {state : SessionState} {n : UInt8} {frame : Frame}
      {event : Event SessionChange} (hs : I true log state) (hf : m.frame n = .ok frame)
      (ht : event.Tries frame) :
      OnCourse own request base (event :: log) state ∧ ψ (event :: log) state :=
    ⟨(hI _ _ _ hs).frame ht (h hs hf ht).1,(h hs hf ht).2⟩
  have hfailed : SessionState.receiver.Upholds fun _ log state =>
    OnCourse own request base log state ∧ True := steady_true.upholds
  exact Triple.transmitOr hψ.upholds hfailed (fun hs hf => hframe hs hf .sent)
    (fun hs hf => ⟨(hframe hs hf .unsent).1,trivial⟩)
    (fun hs _ => ⟨hI _ _ _ hs,trivial⟩) fun _ _ _ hs => hs

theorem runs_waitOutstanding (hψ : Steady ψ) :
    Triple (Runs own request base ψ) waitOutstanding
      (fun _ => Runs own request base fun log state => ψ log state ∧ Free log state)
      (Fails own request base) := by
  refine (Triple.waitOutstanding
    (A := fun m => Runs own request base fun log state => ψ log state ∧ state.outstanding = some m)
    stable_runs (fun _ => stable_runs) (fun e s hs _ => hs.fails e)
    (fun m s hs ho => hs.and (χ := (·.outstanding = some m)) ho) fun m => ?_).post ?_
  · refine runs_transmit hψ (fun _ _ _ h => h.1) ?_
    rintro log state n frame event ⟨h,hs,ho⟩ hf ht
    exact ⟨h.course.again (h.state_eq ▸ ho) hf ht,hψ.grow _ hs⟩
  · exact fun _ s hs => hs.1.and (χ := (·.outstanding = none)) hs.2

/-- The call has just made its message the outstanding one, and nothing else has happened since. -/
def JustRecorded (own : Message → Prop) (request : Option Message) (base : History) (m : Message) :
    Session → Prop :=
  Session.Meets Quiet base fun _ log state => ∃ earlier, log = .changed (.record m) :: earlier ∧
    OnCourse own request base log state ∧ MayBegin m state

theorem stable_justRecorded : Stable (JustRecorded own request base m) :=
  stable_quiet fun _ hs => hs.1

theorem runs_record (hm : isTracked m.kind = true) (hown : own m)
    {E : SessionError → Session → Prop} :
    Triple (Runs own request base fun log state => MayBegin m state ∧ Free log state)
      (update (.record m)) (fun _ => JustRecorded own request base m) E := by
  refine Triple.update fun connected log state ⟨h,hb,ho⟩ => ⟨log,rfl,⟨?_,by rw [h.state_eq]; rfl⟩,hb⟩
  exact h.course.record (h.state_eq ▸ ho) hm hown

theorem runs_first :
    Triple (JustRecorded own request base m) (discard <| transmit m)
      (fun _ => Runs own request base fun log state => MayBegin m state ∧ Asked m log state)
      (Fails own request base) := by
  refine runs_transmit ((steady_mayBegin m).and (steady_asked m)) ?_ ?_
  · rintro connected log state ⟨earlier,-,h,-⟩
    exact h
  · rintro log state n frame event ⟨earlier,rfl,h,hb⟩ hf ht
    refine ⟨h.course.first hf ht,hb,.inr ⟨?_,by simp⟩⟩
    rw [h.state_eq]
    rfl

theorem runs_untracked (hm : isTracked m.kind = false) (hown : own m) :
    Triple (Runs own request base fun log state => MayBegin m state ∧ Free log state)
      (discard <| transmit m)
      (fun _ => Runs own request base fun log state => MayBegin m state ∧ Asked m log state)
      (Fails own request base) := by
  refine runs_transmit ((steady_mayBegin m).and (steady_asked m)) (fun _ _ _ h => h.1) ?_
  rintro log state n frame event ⟨h,hb,ho⟩ hf ht
  exact ⟨h.course.untracked (h.state_eq ▸ ho) hm hown hf ht,hb,.inl ho⟩

theorem runs_post (hown : own m) :
    Triple (Runs own request base fun log state => MayBegin m state ∧ Free log state) (post m)
      (fun _ => Runs own request base fun log state => MayBegin m state ∧ Asked m log state)
      (Fails own request base) :=
  Triple.postMessage stable_justRecorded (fun hm => runs_record hm hown) (fun _ => runs_first)
    fun hm => runs_untracked hm hown

/-- The call has just taken the outstanding message away. -/
def Dropped (own : Message → Prop) (request : Option Message) (base : History) (old : Message)
    (ψ : History → SessionState → Prop) : Session → Prop :=
  Session.Meets Quiet base fun _ log state => ∃ earlier, log = .changed (.giveUp old.kind) :: earlier ∧
    Course own request base earlier ∧ state = after (log ++ base) ∧
    (after (earlier ++ base)).outstanding = some old ∧ ψ earlier (after (earlier ++ base))

theorem stable_dropped {old : Message} : Stable (Dropped own request base old ψ) :=
  stable_quiet fun _ hs => hs.1

theorem runs_drop (old : Message) {E : SessionError → Session → Prop} :
    Triple (Runs own request base fun log state => state.outstanding = some old ∧ ψ log state)
      (update (.giveUp old.kind)) (fun _ => Dropped own request base old ψ) E := by
  refine Triple.update fun connected log state ⟨h,ho,hψ⟩ => ?_
  refine ⟨log,rfl,h.course,by rw [h.state_eq]; rfl,?_⟩
  rw [← h.state_eq]
  exact ⟨ho,hψ⟩

theorem outstanding_of_dropped {old : Message} {s : Session} (h : Dropped own request base old ψ s) :
    s.state.outstanding = none := by
  obtain ⟨-,_,-,earlier,rfl,-,hs,ho,-⟩ := h
  change s.channel.receiver.outstanding = none
  rw [hs]
  exact outstanding_giveUp ho

/-- The call puts its message in the place of the one it has taken away. -/
theorem runs_replace {old : Message} {E : SessionError → Session → Prop}
    (h : ∀ log, Course own request base log → (after (log ++ base)).outstanding = some old →
      ψ log (after (log ++ base)) →
        Course own request base (.changed (.record m) :: .changed (.giveUp old.kind) :: log) ∧
          MayBegin m (after (log ++ base))) :
    Triple (Dropped own request base old ψ) (update (.record m))
      (fun _ => JustRecorded own request base m) E := by
  refine Triple.update fun connected log state hd => ?_
  obtain ⟨earlier,rfl,hc,rfl,ho,hψ⟩ := hd
  obtain ⟨hcourse,hb⟩ := h earlier hc ho hψ
  exact ⟨_,rfl,⟨hcourse,rfl⟩,hb.imp_right (syncedOutgoing_giveUp _ _).trans⟩

/-- Only parameters of the host are taken away; anything else must be acknowledged first. -/
theorem runs_giveUpSync :
    Triple (Runs own request base fun _ _ => True) (update (.giveUp .sync))
      (fun _ s => (∃ old, Dropped own request base (.sync old) (fun _ _ => True) s) ∨
        Runs own request base (fun _ _ => True) s) (Fails own request base) := by
  refine Triple.byValue (fun s => s.state.outstanding) fun outstanding => ?_
  by_cases hold : ∃ old, outstanding = some (.sync old)
  · obtain ⟨old,rfl⟩ := hold
    have hdrop : Triple (Runs own request base fun _ state => state.outstanding = some (.sync old) ∧ True)
        (update (.giveUp .sync)) (fun _ => Dropped own request base (.sync old) fun _ _ => True)
        (Fails own request base) := runs_drop (.sync old)
    refine (hdrop.pre ?_).post fun _ s hs => .inl ⟨old,hs⟩
    rintro s ⟨hs,ho⟩
    exact (hs.and (χ := fun state => state.outstanding = some (.sync old)) ho).mono
      fun _ _ h => ⟨h.2,trivial⟩
  · have hharmless : Triple (Runs own request base fun _ state => state.outstanding = outstanding)
        (update (.giveUp .sync)) (fun _ => Runs own request base fun _ _ => True)
        (Fails own request base) := by
      refine runs_update ?_ fun _ _ _ => trivial
      intro log state ho hk
      obtain ⟨p,hp⟩ := outstandingKind_eq_sync_iff.mp hk
      exact hold ⟨p,ho.symm.trans hp⟩
    refine (hharmless.pre ?_).post fun _ s hs => .inr hs
    rintro s ⟨hs,ho⟩
    exact (hs.and (χ := fun state => state.outstanding = outstanding) ho).mono fun _ _ h => h.2

theorem runs_attemptSync (hsync : ∀ reset, own (.sync (.host reset))) (reset : Bool) (attempts : Nat) :
    Triple (Runs own request base fun _ _ => True) (attemptSync reset attempts)
      (fun _ => Runs own request base Synced) (Fails own request base) := by
  have stable_or {ψ : History → SessionState → Prop} : Stable fun s =>
      (∃ old, Dropped own request base (.sync old) (fun _ _ => True) s) ∨ Runs own request base ψ s :=
    (Stable.ofExists fun _ => stable_dropped).or stable_runs
  have hwait : Triple (fun s => (∃ old, Dropped own request base (.sync old) (fun _ _ => True) s) ∨
      Runs own request base (fun _ _ => True) s) waitOutstanding
      (fun _ s => (∃ old, Dropped own request base (.sync old) (fun _ _ => True) s) ∨
        Runs own request base (fun log state => True ∧ Free log state) s) (Fails own request base) :=
    Triple.or (Triple.ofExists fun old =>
      (Triple.waitNothing fun s => outstanding_of_dropped).post fun _ s hs => .inl ⟨old,hs⟩)
      ((runs_waitOutstanding steady_true).post fun _ s hs => .inr hs)
  have hrecord (reset : Bool) :
      Triple (fun s => (∃ old, Dropped own request base (.sync old) (fun _ _ => True) s) ∨
        Runs own request base (fun log state => True ∧ Free log state) s)
        (update (.record (.sync (.host reset))))
        (fun _ => JustRecorded own request base (.sync (.host reset))) (Fails own request base) := by
    refine Triple.or (Triple.ofExists fun old => ?_) ((runs_record rfl (hsync reset)).pre ?_)
    · exact runs_replace fun log hc ho _ => ⟨hc.resync ho (hsync reset),.inl rfl⟩
    · exact fun s hs => hs.mono fun _ _ h => ⟨.inl rfl,h.2⟩
  have hattempts := Triple.attemptSync (P := fun _ => Runs own request base fun _ _ => True)
    (fun _ _ hs => hs) (fun _ => stable_runs) (fun _ => stable_or) (fun _ => stable_or)
    (fun _ _ => stable_justRecorded) (fun _ e _ hs => hs.fails e) (fun _ => runs_giveUpSync) (fun _ => hwait)
    (fun _ => hrecord) (fun _ _ => runs_first.post fun _ s hs => hs.mono fun _ _ _ => trivial)
  refine (hattempts reset attempts).post ?_
  rintro _ s ⟨hs,hd⟩
  rw [isSynchronized,Bool.and_eq_true] at hd
  exact (hs.and (χ := fun state => state.syncedOutgoing = true) hd.2).mono fun _ _ h => h.2

theorem runs_synchronize (hsync : ∀ reset, own (.sync (.host reset))) :
    Triple (Runs own request base fun _ _ => True) synchronize
      (fun _ => Runs own request base Synced) (Fails own request base) := by
  have hbegin : Triple (Runs own request base fun _ _ => True) (update .beginHandshake)
      (fun _ => Runs own request base fun _ _ => True) (Fails own request base) :=
    runs_update (fun _ _ _ => trivial) fun _ _ _ => trivial
  exact hbegin.step stable_runs (Triple.tries (runs_attemptSync hsync true))

/-- A message is sent once it may be and nothing is outstanding. -/
theorem triple_send_of {Q : Unit → Session → Prop} {E : SessionError → Session → Prop}
    (hsync : needsNoSync m.kind = false → ∀ reset, own (.sync (.host reset)))
    (hE : ∀ e s, Fails own request base e s → E e s)
    (hpost : Triple (Runs own request base fun log state => MayBegin m state ∧ Free log state)
      (post m) Q E) :
    Triple (Runs own request base fun _ _ => True) (send m) Q E := by
  refine Triple.send stable_runs stable_runs ?_ (fun hneeds => ?_)
    ((runs_waitOutstanding (steady_mayBegin m)).error hE) hpost
  · exact fun s hs h => (hs.and (χ := MayBegin m) h).mono fun _ _ h => h.2
  · refine Triple.mono ((Triple.hear stable_runs).bind fun _ => (runs_synchronize (hsync hneeds)).error hE)
      (fun _ hs => hs.1) fun _ s hs => ?_
    exact hs.mono fun _ _ h => .inr h

theorem runs_send (hsync : ∀ reset, own (.sync (.host reset))) (hown : own m) :
    Triple (Runs own request base fun _ _ => True) (send m)
      (fun _ => Runs own request base fun log state => MayBegin m state ∧ Asked m log state)
      (Fails own request base) :=
  triple_send_of (fun _ => hsync) (fun _ _ hs => hs) (runs_post hown)

/-- A request that has just been taken away is sent at once. -/
theorem runs_resend (hrequest : request = some m) :
    Triple (Dropped own request base m fun log state =>
        isTracked m.kind = true ∧ MayBegin m state ∧ .changed (.record m) ∈ log) (send m)
      (fun _ => Runs own request base fun log state => MayBegin m state ∧ Asked m log state)
      (Fails own request base) := by
  refine Triple.send stable_dropped stable_dropped (fun _ hs _ => hs) (Triple.synced ?_)
    (Triple.waitNothing fun s => outstanding_of_dropped)
    (Triple.postMessage stable_justRecorded (fun _ => ?_) (fun _ => runs_first) fun hm => ?_)
  · rintro s ⟨-,_,-,earlier,rfl,-,hs,-,-,hb,-⟩
    change MayBegin m s.channel.receiver
    rw [hs]
    exact hb.imp_right (syncedOutgoing_giveUp _ _).trans
  · exact runs_replace fun log hc ho h => ⟨hc.retry ho h.2.2 hrequest,h.2.1⟩
  · rintro s ⟨-,_,-,earlier,-,-,-,-,htracked,-⟩
    cases hm.symm.trans htracked

theorem runs_ask {α : Type} {query : Query α} (hsync : ∀ reset, own (.sync (.host reset)))
    (hown : own query.request) (hrequest : request = some query.request)
    (hforget : ∀ state, Harmless state query.forget) (again : Bool) (attempts : Nat) :
    Triple (Runs own request base fun log state => again = true →
        MayBegin query.request state ∧ Asked query.request log state) (ask query again attempts)
      (fun _ => Runs own request base fun _ _ => True) (Fails own request base) := by
  refine Triple.ask
    (H := fun again _ => Runs own request base fun log state => again = true →
      MayBegin query.request state ∧ Asked query.request log state)
    (A := fun _ => Runs own request base fun log state =>
      MayBegin query.request state ∧ Asked query.request log state)
    (fun _ => stable_runs) ?_ ?_ (fun _ _ s hs _ => hs.fails _) ?_ ?_ (fun _ s hs => hs.fails _) again attempts
  · refine fun _ => Triple.pre ((Triple.hear stable_runs).bind fun _ => runs_send hsync hown) fun s hs => ?_
    exact hs.mono fun _ _ _ => trivial
  · refine fun _ => (Triple.hear stable_runs).bind fun _ =>
      Triple.byValue (fun s => s.state.outstanding) fun outstanding => ?_
    -- Messages of the target can have cleared the request, but nothing else is outstanding.
    by_cases ho : outstanding = some query.request
    · subst ho
      refine ((runs_drop query.request).pre ?_).step stable_dropped (runs_resend hrequest)
      rintro s ⟨⟨hq,log,hl,hc,hasked⟩,ho⟩
      obtain ⟨hb,hfree | ⟨-,hmem⟩⟩ := hasked rfl
      · cases ho.symm.trans hfree
      · exact ⟨hq,log,hl,hc,ho,(hc.course.begun_of_mem hmem).2,hb,hmem⟩
    · have hfree : Triple (Runs own request base Free) (update (.giveUp query.request.kind))
          (fun _ => Runs own request base fun _ _ => True) (Fails own request base) := by
        refine runs_update (fun _ state hs => ?_) fun _ _ _ => trivial
        simp [Harmless,outstandingKind,show state.outstanding = none from hs]
      refine (hfree.pre ?_).step stable_runs (runs_send hsync hown)
      rintro s ⟨⟨hq,log,hl,hc,hasked⟩,hs⟩
      obtain ⟨-,hnone | ⟨hsome,-⟩⟩ := hasked rfl
      · exact ⟨hq,log,hl,hc,hnone⟩
      · exact absurd (hs.symm.trans hsome) ho
  · have hupdate : Triple (Runs own request base fun _ _ => True) (update query.forget)
        (fun _ => Runs own request base fun _ _ => True) (Fails own request base) :=
      runs_update (fun _ state _ => hforget state) fun _ _ _ => trivial
    exact fun _ _ => hupdate.pre fun s hs => hs.1.mono fun _ _ _ => trivial
  · exact fun _ s hs _ => hs.mono fun _ _ h _ => h

theorem runs_read {α : Type} {query : Query α} (hsync : ∀ reset, own (.sync (.host reset)))
    (hown : own query.request) (hrequest : request = some query.request)
    (hforget : ∀ state, Harmless state query.forget) :
    Triple (Runs own request base fun _ _ => True) (read query)
      (fun _ => Runs own request base fun _ _ => True) (Fails own request base) := by
  have hbegin : Triple (Runs own request base fun _ _ => True) (update query.forget)
      (fun _ => Runs own request base fun _ _ => True) (Fails own request base) :=
    runs_update (fun _ state _ => hforget state) fun _ _ _ => trivial
  refine hbegin.bind fun _ => ?_
  refine (Triple.tries (runs_ask hsync hown hrequest hforget false)).pre fun s hs => ?_
  exact hs.mono fun _ _ _ h => by cases h

theorem runs_addBlock (hsync : ∀ reset, own (.sync (.host reset)))
    (hown : ∀ block, own (.memAddBlock block)) (space : UInt8) (data : Bytes) :
    Triple (Runs own request base fun _ _ => True) (addBlock space data)
      (fun _ => Runs own request base fun _ _ => True) (Fails own request base) := by
  refine Triple.addBlock (P := fun _ => Runs own request base fun _ _ => True)
    (R := fun _ => Runs own request base fun _ _ => True) (fun _ => stable_runs)
    (fun segments => ?_) (fun _ => ?_) fun e _ hs => hs.fails (.message e)
  · refine Triple.sendSegments (P := fun _ => Runs own request base fun _ _ => True)
      (fun segment _ => ?_) segments
    refine ((Triple.hear stable_runs).bind fun _ => runs_send hsync (hown segment)).post fun _ s hs => ?_
    exact hs.mono fun _ _ _ => trivial
  · exact (runs_waitOutstanding steady_true).post fun _ s hs => hs.mono fun _ _ _ => trivial

end RemotePyMite.Session
