import RemotePyMite.Proofs.Session.Announcement
import RemotePyMite.Proofs.Session.Steady
import RemotePyMite.Proofs.Session.Triple

/-! # What is sent before the handshake

Before the target has acknowledged the parameters of the host, a message that needs that is sent only if its
writing has begun before and nothing was recorded since (`Gated`).  `Guards` says so of all that has happened
since the last handshake began; every action of a call keeps it, and only a handshake that a call begins ends
it.
-/
namespace RemotePyMite.Session
open SessionState RemotePyMite.Action

/-- The message was sent, or its writing broke off, and nothing was recorded since. -/
def TriedSince (m : Message) (log : History) : Prop :=
  ∃ later event earlier frame n, log = later ++ event :: earlier ∧ Event.Tries frame event ∧
    m.frame n = .ok frame ∧ ∀ other, .changed (.record other) ∉ later

/-- The frame repeats a message that waits for an acknowledgment and was sent since it was recorded. -/
def Repeats (frame : Frame) (earlier : History) : Prop :=
  ∃ m n, m.frame n = .ok frame ∧ isTracked m.kind = true ∧ TriedSince m earlier

/-- If the event sends a frame that needs the handshake before that is done, it repeats one. -/
def Gated (event : Event SessionChange) (earlier : History) : Prop :=
  ∀ frame, event.Tries frame → Kind.ofWire? frame.kind ≠ some .ack →
    Kind.ofWire? frame.kind ≠ some .sync → (after earlier).syncedOutgoing = false →
      Repeats frame earlier

/-- Since the history was `base` no handshake has begun and all was gated.  On a connected channel the
outstanding message was sent, if any frame can hold it; if it may be `fresh`, it may also be one that is
still to be sent for the first time. -/
structure Guards (base : History) (fresh : Prop) (connected : Bool) (log : History) (state : SessionState) :
    Prop where
  state_eq : state = after (log ++ base)
  begun : .changed .beginHandshake ∉ log
  gated : ∀ event earlier, event :: earlier <:+ log → Gated event (earlier ++ base)
  tried : connected = true → ∀ m, state.outstanding = some m →
    isTracked m.kind = true ∧ (fresh ∧ MayBegin m state ∨ TriedSince m (log ++ base) ∨ m.Unsendable)

variable {base log : History} {fresh : Prop} {connected : Bool} {state : SessionState} {m : Message}
  {event : Event SessionChange} {frame : Frame} {n : UInt8} {ψ φ : History → SessionState → Prop}

theorem TriedSince.cons (h : TriedSince m log) (he : ∀ other, event ≠ .changed (.record other)) :
    TriedSince m (event :: log) := by
  obtain ⟨later,tried,earlier,frame,n,rfl,ht,hf,hnew⟩ := h
  refine ⟨event :: later,tried,earlier,frame,n,rfl,ht,hf,fun other => ?_⟩
  rw [List.mem_cons,not_or]
  exact ⟨(he other).symm,hnew other⟩

theorem triedSince_of_tries (hf : m.frame n = .ok frame) (ht : event.Tries frame) :
    TriedSince m (event :: log) :=
  ⟨[],event,log,frame,n,rfl,ht,hf,by simp⟩

theorem gated_of_mayBegin (hf : m.frame n = .ok frame) (ht : event.Tries frame)
    (hb : MayBegin m (after log)) : Gated event log := by
  intro other hother ha hs ho
  cases Option.some.inj (hother.frame?_eq.symm.trans ht.frame?_eq)
  rw [Message.kind_of_frame hf,ne_eq,Option.some.injEq] at ha hs
  rcases hb with hb | hb
  · simp [needsNoSync,ha,hs] at hb
  · cases ho.symm.trans hb

theorem gated_of_triedSince (hf : m.frame n = .ok frame) (ht : event.Tries frame)
    (hm : isTracked m.kind = true) (h : TriedSince m log) : Gated event log := by
  intro other hother _ _ _
  cases Option.some.inj (hother.frame?_eq.symm.trans ht.frame?_eq)
  exact ⟨m,n,hf,hm,h⟩

theorem gated_of_frame? (he : event.frame? = none) : Gated event log := by
  intro frame ht
  cases he.symm.trans ht.frame?_eq

theorem Guards.gated_cons (h : Guards base fresh connected log state) (hg : Gated event (log ++ base)) :
    ∀ other earlier, other :: earlier <:+ event :: log → Gated other (earlier ++ base) := by
  intro other earlier hs
  rcases List.suffix_cons_iff.mp hs with heq | hs
  · cases heq
    exact hg
  · exact h.gated other earlier hs

/-- An event that is no frame, begins no handshake and records nothing. -/
theorem Guards.idle (h : Guards base fresh connected log state) {state' : SessionState}
    (hs : state' = after (event :: log ++ base)) (he : event.frame? = none)
    (hb : event ≠ .changed .beginHandshake) (hr : ∀ other, event ≠ .changed (.record other))
    (ho : state'.outstanding = none ∨ state'.outstanding = state.outstanding)
    (hkept : state.syncedOutgoing = true → state'.syncedOutgoing = true) :
    Guards base fresh connected (event :: log) state' := by
  refine ⟨hs,?_,h.gated_cons (gated_of_frame? he),fun hc m hm => ?_⟩
  · rw [List.mem_cons,not_or]
    exact ⟨hb.symm,h.begun⟩
  · rcases ho with ho | ho
    · cases ho.symm.trans hm
    · refine (h.tried hc m (ho.symm.trans hm)).imp_right (Or.imp ?_ (Or.imp_left fun ht => ht.cons hr))
      exact And.imp_right (Or.imp_right hkept)

theorem Guards.sent (h : Guards base fresh connected log state) (ht : event.Tries frame)
    (hg : Gated event (log ++ base)) {fresh' : Prop}
    (hm : connected = true → ∀ m, state.outstanding = some m → isTracked m.kind = true ∧
      (fresh' ∧ MayBegin m state ∨ TriedSince m (event :: log ++ base) ∨ m.Unsendable)) :
    Guards base fresh' connected (event :: log) state := by
  refine ⟨?_,?_,h.gated_cons hg,hm⟩
  · cases ht <;> exact h.state_eq
  · cases ht <;> simpa using h.begun

/-- A frame that repeats something or is an answer. -/
theorem Guards.again (h : Guards base fresh connected log state) (ht : event.Tries frame)
    (hg : Gated event (log ++ base)) : Guards base fresh connected (event :: log) state := by
  refine h.sent ht hg fun hc m hm => (h.tried hc m hm).imp_right (.imp_right (.imp_left fun h => ?_))
  exact h.cons (by cases ht <;> simp)

theorem Guards.received (h : Guards base fresh connected log state) (m : Message) :
    Guards base fresh connected (.received m :: log) (state.receive m).state :=
  h.idle (by rw [h.state_eq]; rfl) rfl (by simp) (by simp) (state.outstanding_receive m)
    (syncedOutgoing_receive m)

/-- Once the connection is lost nothing that is outstanding will be sent. -/
theorem Guards.lost (h : Guards base fresh connected log state) : Guards base fresh false log state :=
  ⟨h.state_eq,h.begun,h.gated,nofun⟩

theorem upholds_guards : receiver.Upholds (Guards base fresh) where
  received := fun m h _ => h.received m
  -- What answers a message is an acknowledgment, or the message that was outstanding before and still is.
  replied := by
    intro log state m reply n frame event h hr hf ht
    have hreceived := h.received m
    refine hreceived.again ht ?_
    rcases reply_receive hr with rfl | ⟨ho,hstate⟩
    · intro other hother ha
      cases Option.some.inj (hother.frame?_eq.symm.trans ht.frame?_eq)
      exact absurd (Message.kind_of_frame hf) ha
    · have hkept := (congrArg SessionState.outstanding hstate).trans ho
      obtain ⟨htracked,⟨-,hb⟩ | htried | hu⟩ := hreceived.tried rfl reply hkept
      · exact gated_of_mayBegin hf ht (hreceived.state_eq ▸ hb)
      · exact gated_of_triedSince hf ht htracked htried
      · exact absurd hf (hu n frame)
  broke := fun reason h => h.lost.idle h.state_eq rfl (by simp) (by simp) (.inr rfl) id

/-- A session in which all has been guarded since its history was `base`, and of which `ψ` holds. -/
def Guarded (base : History) (ψ : History → SessionState → Prop) (s : Session) : Prop :=
  s.Meets (fun _ _ => True) base fun connected log state =>
    Guards base False connected log state ∧ ψ log state

/-- A message is to be sent for the first time; it may be cleared before. -/
def Opening (base : History) (m : Message) (s : Session) : Prop :=
  s.Meets (fun _ _ => True) base fun connected log state => Guards base True connected log state ∧
    MayBegin m state ∧ ∀ other, state.outstanding = some other → other = m

/-- The message has been found outstanding; it may be cleared before it is sent again. -/
def Repeating (base : History) (ψ : History → SessionState → Prop) (m : Message) (s : Session) : Prop :=
  s.Meets (fun _ _ => True) base fun connected log state =>
    (Guards base False connected log state ∧ ψ log state) ∧
      (connected = true → isTracked m.kind = true ∧ (TriedSince m (log ++ base) ∨ m.Unsendable))

/-- A call that fails has been guarded all the same. -/
def FailsGuarded (base : History) (_ : SessionError) : Session → Prop :=
  Guarded base fun _ _ => True

theorem Guarded.mono {s : Session} (h : Guarded base ψ s)
    (hψ : ∀ log state, ψ log state → φ log state) : Guarded base φ s :=
  Session.Meets.mono h fun _ _ _ hs => ⟨hs.1,hψ _ _ hs.2⟩

theorem Guarded.and {s : Session} (h : Guarded base ψ s) {χ : SessionState → Prop} (hχ : χ s.state) :
    Guarded base (fun log state => ψ log state ∧ χ state) s :=
  (Session.Meets.and h hχ).mono fun _ _ _ hs => ⟨hs.1.1,hs.1.2,hs.2⟩

theorem Guarded.fails {s : Session} (h : Guarded base ψ s) (e : SessionError) : FailsGuarded base e s :=
  h.mono fun _ _ _ => trivial

theorem Steady.guards (hψ : Steady ψ) : receiver.Upholds fun connected log state =>
    Guards base fresh connected log state ∧ ψ log state :=
  upholds_guards.and hψ.keeps.upholds

theorem stable_guarded (hψ : Steady ψ) : Stable (Guarded base ψ) :=
  stable_meets (fun _ _ _ _ => trivial) hψ.guards

theorem stable_opening (m : Message) : Stable (Opening base m) :=
  stable_meets (fun _ _ _ _ => trivial) (upholds_guards.and ((steady_mayBegin m).keeps.upholds.and
    (keeps_outstanding (C := fun other _ => other = m) fun _ h => h).upholds))

theorem stable_repeating (hψ : Steady ψ) (m : Message) : Stable (Repeating base ψ m) := by
  refine stable_meets (fun _ _ _ _ => trivial) (hψ.guards.and ⟨fun _ h _ hc => ?_,?_,fun _ _ => nofun⟩)
  · exact (h hc).imp_right (.imp_left fun h => h.cons (by simp))
  · intro log state k reply n frame event h _ _ ht hc
    exact (h hc).imp_right (.imp_left fun h => (h.cons (by simp)).cons (by cases ht <;> simp))

theorem guarded_update {change : SessionChange} {E : SessionError → Session → Prop}
    (hr : ∀ other, change ≠ .record other) (hb : change ≠ .beginHandshake)
    (hψ : ∀ log state, ψ log state → φ (.changed change :: log) (state.change change)) :
    Triple (Guarded base ψ) (update change) (fun _ => Guarded base φ) E := by
  refine Triple.update fun _ log state ⟨h,hs⟩ => ⟨?_,hψ _ _ hs⟩
  refine h.idle (by rw [h.state_eq]; rfl) rfl (by simpa using hb) (by simpa using hr)
    (outstanding_change state hr) fun ho => ?_
  exact (state.handshake_change hb).2.1.trans ho

/-- What is sent is gated, and has been tried then if it is outstanding. -/
theorem guarded_transmit {I : Bool → History → SessionState → Prop} (hψ : Steady ψ)
    (h : ∀ {log state n frame event}, I true log state → m.frame n = .ok frame → event.Tries frame →
      Guards base False true (event :: log) state ∧ ψ (event :: log) state)
    (hrefused : ∀ {connected log state}, I connected log state → (connected = true → m.Unsendable) →
      Guards base False connected log state) :
    Triple (Session.Meets (fun _ _ => True) base I) (discard <| transmit m) (fun _ => Guarded base ψ)
      (FailsGuarded base) := by
  have hfailed : receiver.Upholds fun connected log state =>
    Guards base False connected log state ∧ True := steady_true.guards
  exact Triple.transmitOr hψ.guards hfailed (fun hs hf => h hs hf .sent)
    (fun hs hf => ⟨(h hs hf .unsent).1,trivial⟩) (fun hs hu => ⟨hrefused hs hu,trivial⟩)
    fun _ _ _ hs => hs

theorem guarded_waitOutstanding (hψ : Steady ψ) :
    Triple (Guarded base ψ) waitOutstanding
      (fun _ => Guarded base fun log state => ψ log state ∧ Free log state) (FailsGuarded base) := by
  refine (Triple.waitOutstanding (A := Repeating base ψ) (stable_guarded hψ) (stable_repeating hψ)
    (fun e _ hs _ => hs.fails e) ?_ fun m => guarded_transmit hψ ?_ fun h _ => h.1.1).post
      fun _ s hs => hs.1.and (χ := (·.outstanding = none)) hs.2
  · rintro m s ⟨-,log,hl,h,hs⟩ ho
    refine ⟨trivial,log,hl,⟨h,hs⟩,fun hc => ?_⟩
    exact (h.tried hc m ho).imp_right fun h => h.resolve_left And.left
  · rintro log state n frame event ⟨⟨h,hs⟩,ho⟩ hf ht
    obtain ⟨htracked,htried | hu⟩ := ho rfl
    · exact ⟨h.again ht (gated_of_triedSince hf ht htracked htried),hψ.grow _ hs⟩
    · exact absurd hf (hu n frame)

theorem guarded_record (m : Message) (hm : isTracked m.kind = true) {E : SessionError → Session → Prop} :
    Triple (Guarded base fun _ => MayBegin m) (update (.record m)) (fun _ => Opening base m) E := by
  refine Triple.update fun _ log state ⟨h,hb⟩ => ⟨⟨?_,?_,?_,fun _ other ho => ?_⟩,hb,?_⟩
  · rw [h.state_eq]
    rfl
  · simpa using h.begun
  · exact h.gated_cons (gated_of_frame? rfl)
  · cases ho
    exact ⟨hm,.inl ⟨trivial,hb⟩⟩
  · rintro _ ⟨⟩
    rfl

theorem guarded_first (m : Message) :
    Triple (Opening base m) (discard <| transmit m) (fun _ => Guarded base fun _ => MayBegin m)
      (FailsGuarded base) := by
  refine guarded_transmit (steady_mayBegin m) ?_ ?_
  -- It may have been cleared since it was recorded, but nothing else is outstanding.
  · rintro log state n frame event ⟨h,hb,ho⟩ hf ht
    refine ⟨h.sent ht (gated_of_mayBegin hf ht (h.state_eq ▸ hb)) fun hc other hother => ?_,hb⟩
    refine ⟨(h.tried hc other hother).1,.inr (.inl ?_)⟩
    rw [ho other hother]
    exact triedSince_of_tries hf ht
  · rintro connected log state ⟨h,-,ho⟩ hu
    refine ⟨h.state_eq,h.begun,h.gated,fun hc other hother => ?_⟩
    exact ⟨(h.tried hc other hother).1,.inr (.inr (ho other hother ▸ hu hc))⟩

theorem guarded_post (m : Message) :
    Triple (Guarded base fun log state => MayBegin m state ∧ Free log state) (post m)
      (fun _ => Guarded base fun _ => MayBegin m) (FailsGuarded base) := by
  refine Triple.postMessage (stable_opening m) (fun hm => (guarded_record m hm).pre fun s hs => ?_)
    (fun _ => guarded_first m) fun _ => guarded_transmit (steady_mayBegin m) ?_ fun h _ => h.1
  · exact hs.mono fun _ _ h => h.1
  · rintro log state n frame event ⟨h,hb,-⟩ hf ht
    exact ⟨h.again ht (gated_of_mayBegin hf ht (h.state_eq ▸ hb)),hb⟩

theorem guarded_attemptSync (reset : Bool) (attempts : Nat) :
    Triple (Guarded base fun _ _ => True) (attemptSync reset attempts) (fun _ => Guarded base Synced)
      (FailsGuarded base) := by
  have hattempts := Triple.attemptSync (P := fun _ => Guarded base fun _ _ => True)
    (G := fun _ => Guarded base fun _ _ => True)
    (F := fun _ => Guarded base fun log state => True ∧ Free log state)
    (T := fun _ reset => Opening base (.sync (.host reset)))
    (fun _ _ hs => hs) (fun _ => stable_guarded steady_true) (fun _ => stable_guarded steady_true)
    (fun _ => stable_guarded (steady_true.and steady_free)) (fun _ _ => stable_opening _)
    (fun _ e _ hs => hs.fails e) (fun _ => guarded_update (by simp) (by simp) fun _ _ _ => trivial)
    (fun _ => guarded_waitOutstanding steady_true)
    (fun _ _ => (guarded_record _ rfl).pre fun _ hs => hs.mono fun _ _ _ => .inl rfl)
    (fun _ _ => (guarded_first _).post fun _ _ hs => hs.mono fun _ _ _ => trivial)
  refine (hattempts reset attempts).post ?_
  rintro _ s ⟨hs,hd⟩
  rw [isSynchronized,Bool.and_eq_true] at hd
  exact (hs.and (χ := fun state => state.syncedOutgoing = true) hd.2).mono fun _ _ h => h.2

theorem Guards.anew (h : Guards base False connected log state) :
    Guards (log ++ base) False connected [] state :=
  ⟨h.state_eq,List.not_mem_nil,by simp,h.tried⟩

theorem Guarded.anew {s : Session} (h : Guarded base ψ s) :
    Guarded s.channel.log (fun _ _ => True) s := by
  obtain ⟨-,log,hl,h,-⟩ := h
  exact ⟨trivial,[],rfl,hl ▸ h.anew,trivial⟩

/-- When a handshake begins all goes on as guarded as before. -/
theorem Guarded.begin {s : Session} (h : Guarded base ψ s) :
    Guarded (.changed .beginHandshake :: s.channel.log) (fun _ _ => True)
      { s with channel := s.channel.change receiver .beginHandshake } := by
  obtain ⟨-,log,hl,h,-⟩ := h
  have hs : Guards s.channel.log False s.channel.isConnected [] s.state := hl ▸ h.anew
  have hstate := congrArg (·.change .beginHandshake) hs.state_eq
  refine ⟨trivial,[],rfl,⟨hstate,List.not_mem_nil,by simp,fun hc m hm => ?_⟩,trivial⟩
  refine (hs.tried hc m hm).imp_right fun hm => .inr ((hm.resolve_left And.left).imp_left fun ht => ?_)
  exact ht.cons (by simp)

theorem guarded_synchronize {s : Session} (h : Guarded base ψ s) :
    Triple (· = s) synchronize (fun _ => Guarded (.changed .beginHandshake :: s.channel.log) Synced)
      (FailsGuarded (.changed .beginHandshake :: s.channel.log)) := by
  have hbegin : Triple (· = s) (update .beginHandshake)
      (fun _ => Guarded (.changed .beginHandshake :: s.channel.log) fun _ _ => True)
      (FailsGuarded (.changed .beginHandshake :: s.channel.log)) := by
    rintro _ rfl
    exact h.begin
  exact hbegin.step (stable_guarded steady_true) (Triple.tries (guarded_attemptSync true))

/-- Once the handshake is done, a call begins no other. -/
theorem guarded_send (m : Message) :
    Triple (Guarded base fun _ => MayBegin m) (send m) (fun _ => Guarded base fun _ => MayBegin m)
      (FailsGuarded base) := by
  have hm : Steady fun _ => MayBegin m := steady_mayBegin m
  refine Triple.send (stable_guarded hm) (stable_guarded (hm.and steady_free)) (fun _ hs _ => hs)
    (Triple.synced ?_) (guarded_waitOutstanding hm) (guarded_post m)
  rintro s ⟨-,log,-,-,hb⟩
  exact hb

/-- The history since which a call has been guarded that begins a handshake in one session, or none. -/
def origin (base : History) : Option Session → History
  | some s => .changed .beginHandshake :: s.channel.log
  | none => base

/-- The session in which the sending of a message begins a handshake. -/
def sendHandshake? (m : Message) (s : Session) : Option Session :=
  if needsNoSync m.kind || s.state.syncedOutgoing then none else some s.hear

theorem Guarded.hear {s : Session} (h : Guarded base ψ s) : Guarded base (fun _ _ => True) s.hear :=
  stable_guarded steady_true s (h.mono fun _ _ _ => trivial)

theorem guarded_sendFrom {s : Session} (h : Guarded base ψ s) (m : Message) :
    Triple (· = s) (send m) (fun _ => Guarded (origin base (sendHandshake? m s)) fun _ => MayBegin m)
      (FailsGuarded (origin base (sendHandshake? m s))) := by
  have hm : Steady fun _ => MayBegin m := steady_mayBegin m
  unfold sendHandshake?
  cases hready : needsNoSync m.kind || s.state.syncedOutgoing with
  | true =>
    have hb : MayBegin m s.state := by simpa [MayBegin] using hready
    refine (guarded_send m).pre ?_
    rintro _ rfl
    exact (h.and (χ := MayBegin m) hb).mono fun _ _ h => h.2
  | false =>
    refine Triple.send (stable_guarded hm) (stable_guarded (hm.and steady_free)) ?_ (fun _ => ?_)
      (guarded_waitOutstanding hm) (guarded_post m)
    · rintro _ rfl hb
      rw [← Bool.or_eq_true,hready] at hb
      cases hb
    · have hheard : Triple (fun s' => s' = s ∧ s'.state.syncedOutgoing = false) Action.hear
          (fun _ => (· = s.hear)) (FailsGuarded (.changed .beginHandshake :: s.hear.channel.log)) := by
        rintro _ ⟨rfl,-⟩
        rfl
      refine (hheard.bind fun _ => guarded_synchronize h.hear).post fun _ s' hs => ?_
      exact hs.mono fun _ _ h => .inr h

/-- The session in which a read begins a handshake. -/
def readHandshake? {α : Type} (query : Query α) (s : Session) : Option Session :=
  if s.retries = 0 then none
  else sendHandshake? query.request
    (Session.hear { s with channel := s.channel.change receiver query.forget })

theorem guarded_read {α : Type} {query : Query α} {s : Session} (h : Guarded base ψ s)
    (hr : ∀ other, query.forget ≠ .record other) (hb : query.forget ≠ .beginHandshake) :
    Triple (· = s) (read query) (fun _ => Guarded (origin base (readHandshake? query s)) fun _ _ => True)
      (FailsGuarded (origin base (readHandshake? query s))) := by
  generalize hbase : origin base (readHandshake? query s) = past
  let asked : Session := { s with channel := s.channel.change receiver query.forget }
  have hforget {base : History} {ψ : History → SessionState → Prop} : Triple (Guarded base ψ)
      (update query.forget) (fun _ => Guarded base fun _ _ => True) (FailsGuarded past) :=
    guarded_update hr hb fun _ _ _ => trivial
  have hasked : Guarded base (fun _ _ => True) asked := hforget s h
  have hm : Steady fun _ => MayBegin query.request := steady_mayBegin query.request
  have hfirst : Triple (· = s) (update query.forget) (fun _ => (· = asked)) (FailsGuarded past) := by
    rintro _ rfl
    rfl
  -- Only the first attempt can find the handshake not done.
  have hask := Triple.ask (E := FailsGuarded past)
    (Q := fun _ => Guarded past fun _ _ => True)
    (H := fun again n s' => again = false ∧ s' = asked ∧ n = s.retries ∨
      again = true ∧ Guarded past (fun _ => MayBegin query.request) s')
    (A := fun _ => Guarded past fun _ => MayBegin query.request) (fun _ => stable_guarded hm)
    ?_ ?_ (fun _ _ s hs _ => hs.fails _) (fun _ _ => hforget.pre fun _ hs => hs.1)
    (fun _ s hs _ => .inr ⟨rfl,hs⟩) ?_ false s.retries
  · refine hfirst.bind fun _ => Triple.get.bind fun now => Triple.assume (φ := now = asked) ?_ ?_
    · rintro s' ⟨rfl,rfl⟩
      rfl
    · rintro rfl
      exact hask.pre fun _ hs => .inl ⟨rfl,hs.1,rfl⟩
  · intro n
    refine Triple.assume (φ := n + 1 = s.retries) ?_ fun hn => ?_
    · rintro s' (⟨-,-,hn⟩ | ⟨⟨⟩,-⟩)
      exact hn
    · have hheard : Triple (· = asked) Action.hear (fun _ => (· = asked.hear)) (FailsGuarded past) := by
        rintro _ rfl
        rfl
      have hsend := guarded_sendFrom hasked.hear query.request
      rw [readHandshake?,if_neg (by omega)] at hbase
      rw [hbase] at hsend
      refine (hheard.bind fun _ => hsend).pre ?_
      rintro s' (⟨-,hs,-⟩ | ⟨⟨⟩,-⟩)
      exact hs
  · intro n
    have hgive : Triple (Guarded past fun _ => MayBegin query.request) (update (.giveUp query.request.kind))
        (fun _ => Guarded past fun _ => MayBegin query.request) (FailsGuarded past) := by
      refine guarded_update (by simp) (by simp) fun _ state hs => hs.imp_right fun hs => ?_
      exact (syncedOutgoing_giveUp state _).trans hs
    refine ((Triple.hear (stable_guarded hm)).bind fun _ =>
      hgive.step (stable_guarded hm) (guarded_send query.request)).pre ?_
    rintro s' (⟨⟨⟩,-⟩ | ⟨-,hs⟩)
    exact hs
  · rintro again s' (⟨-,rfl,hn⟩ | ⟨-,hs⟩)
    · rw [readHandshake?,if_pos hn.symm] at hbase
      exact hbase ▸ hasked.fails _
    · exact hs.fails _

/-- The session in which the sending of these segments begins a handshake. -/
def segmentsHandshake? (s : Session) (cut : Except MessageError (List Block)) : Option Session :=
  (cut.toOption.bind List.head?).bind fun segment => sendHandshake? (.memAddBlock segment) s.hear

theorem guarded_sendSegments {s : Session} (h : Guarded base ψ s) (segments : List Block) :
    Triple (· = s) (sendSegments segments)
      (fun _ => Guarded (origin base (segmentsHandshake? s (.ok segments))) fun _ _ => True)
      (FailsGuarded (origin base (segmentsHandshake? s (.ok segments)))) := by
  cases segments with
  | nil =>
    refine Triple.pure ?_
    rintro _ rfl
    exact h.mono fun _ _ _ => trivial
  | cons first rest =>
    have hheard : Triple (· = s) Action.hear (fun _ => (· = s.hear))
        (FailsGuarded (origin base (sendHandshake? (.memAddBlock first) s.hear))) := by
      rintro _ rfl
      rfl
    have hrest := Triple.sendSegments (P := fun _ => Guarded
        (origin base (sendHandshake? (.memAddBlock first) s.hear)) fun _ => MayBegin (.memAddBlock first))
      (fun segment _ => (Triple.hear (stable_guarded (steady_mayBegin _))).bind fun _ =>
        guarded_send (.memAddBlock segment)) rest
    unfold sendSegments
    refine hheard.bind fun _ => (guarded_sendFrom h.hear (.memAddBlock first)).bind fun _ => ?_
    exact hrest.post fun _ _ hs => hs.mono fun _ _ _ => trivial

/-- The session in which the transfer of a block begins a handshake. -/
def blockHandshake? (space : UInt8) (data : Bytes) (s : Session) : Option Session :=
  segmentsHandshake? s (Block.segments space data s.outgoingSegmentSize)

theorem guarded_addBlock {s : Session} (h : Guarded base ψ s) (space : UInt8) (data : Bytes) :
    Triple (· = s) (addBlock space data)
      (fun _ => Guarded (origin base (blockHandshake? space data s)) fun _ _ => True)
      (FailsGuarded (origin base (blockHandshake? space data s))) := by
  unfold blockHandshake?
  generalize hcut : Block.segments space data s.outgoingSegmentSize = cut
  refine Triple.pre (Triple.addBlock (P := fun found s' => s' = s ∧ found = cut)
    (R := fun _ => Guarded (origin base (segmentsHandshake? s cut)) fun _ _ => True)
    (fun _ => stable_guarded steady_true) (fun segments => ?_) (fun _ => ?_) ?_) ?_
  · refine Triple.assume (φ := .ok segments = cut) (fun _ hs => hs.2) ?_
    rintro rfl
    exact (guarded_sendSegments h segments).pre fun _ hs => hs.1
  · exact (guarded_waitOutstanding steady_true).post fun _ _ hs => hs.mono fun _ _ _ => trivial
  · rintro e _ ⟨rfl,rfl⟩
    exact h.fails _
  · rintro _ rfl
    exact ⟨rfl,hcut⟩

end RemotePyMite.Session
