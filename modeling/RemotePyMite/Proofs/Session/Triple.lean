import RemotePyMite.Proofs.Channel.Invariant
import RemotePyMite.Proofs.Session.Incoming
import RemotePyMite.Session.Calls

/-! # What a call does, step by step

A triple says what holds after a call that ends well and what holds after one that fails.
Triples compose along `do`; the calls of a session are made of the few actions below.  Between two
of these something may come in, so what a call relies on must be stable: nothing that comes in
undoes it.
-/
namespace RemotePyMite

/-- `I` holds of the connection and of what happened in the session since its log was `base`, and `φ`
of how often the session tries and of what will come between the steps of its calls. -/
def Session.Meets (φ : Nat → List (List Arrival) → Prop) (base : List (Event SessionChange))
    (I : Bool → List (Event SessionChange) → SessionState → Prop) (s : Session) : Prop :=
  φ s.retries s.meanwhile ∧ s.channel.Meets base I

/-- The same for what says nothing of the connection and of the session but what happened. -/
abbrev Session.Since (base : List (Event SessionChange))
    (I : List (Event SessionChange) → SessionState → Prop) (s : Session) : Prop :=
  s.Meets (fun _ _ => True) base fun _ => I

/-- The same for a session that tries `r` times. -/
abbrev Session.Trying (r : Nat) (base : List (Event SessionChange))
    (I : Bool → List (Event SessionChange) → SessionState → Prop) (s : Session) : Prop :=
  s.Meets (fun retries _ => retries = r) base I

/-- It stays so when some of what will come has come. -/
def Lasting (φ : Nat → List (List Arrival) → Prop) : Prop :=
  ∀ retries arrivals rest, φ retries (arrivals :: rest) → φ retries rest

/-- What comes between two steps of a call does not undo it. -/
def Session.Stable (P : Session → Prop) : Prop :=
  ∀ s, P s → P s.hear

/-- Where nothing is outstanding, nothing that comes in changes that. -/
theorem Receiver.Upholds.free {I : Bool → List (Event SessionChange) → SessionState → Prop}
    (h : SessionState.receiver.Upholds I) :
    SessionState.receiver.Upholds fun connected events state =>
      I connected events state ∧ state.outstanding = none where
  received := fun m hs hu => ⟨h.received m hs.1 hu,SessionState.outstanding_receive_of_none m hs.2⟩
  replied := fun m _ _ _ _ hs hr hf ht =>
    ⟨h.replied m hs.1 hr hf ht,SessionState.outstanding_receive_of_none m hs.2⟩
  broke := fun reason hs => ⟨h.broke reason hs.1,hs.2⟩

namespace Session

variable {φ : Nat → List (List Arrival) → Prop} {base : List (Event SessionChange)}
  {I J : Bool → List (Event SessionChange) → SessionState → Prop} {s : Session}

theorem Meets.mono (h : s.Meets φ base I)
    (hIJ : ∀ connected events state, I connected events state → J connected events state) :
    s.Meets φ base J :=
  ⟨h.1,Channel.Meets.mono h.2 hIJ⟩

theorem Meets.since {ψ : List (Event SessionChange) → SessionState → Prop} (h : s.Meets φ base I)
    (hI : ∀ connected events state, I connected events state → ψ events state) : s.Since base ψ :=
  ⟨trivial,Channel.Meets.mono h.2 hI⟩

theorem Meets.and (h : s.Meets φ base I) {χ : SessionState → Prop} (hχ : χ s.state) :
    s.Meets φ base fun connected events state => I connected events state ∧ χ state := by
  obtain ⟨hφ,events,hl,hI⟩ := h
  exact ⟨hφ,events,hl,hI,hχ⟩

theorem Meets.settle (h : s.Meets φ base I) (hI : SessionState.receiver.Upholds I) :
    Session.Meets φ base I { s with channel := s.channel.settle SessionState.receiver } :=
  ⟨h.1,Channel.Meets.settle h.2 hI⟩

theorem hear_of_quiet (h : s.meanwhile = []) : s.hear = s := by
  unfold hear
  rw [h]

variable {P Q : Session → Prop}

theorem stable_meets (hφ : Lasting φ) (hI : SessionState.receiver.Upholds I) :
    Stable (Session.Meets φ base I) := by
  intro s h
  unfold hear
  split
  · exact h
  · next arrivals rest hm =>
    refine ⟨?_,Channel.Meets.accept h.2 hI arrivals⟩
    have hs := h.1
    rw [hm] at hs
    exact hφ _ _ _ hs

theorem stable_since {ψ : List (Event SessionChange) → SessionState → Prop}
    (hψ : SessionState.receiver.Keeps ψ) : Stable (Session.Since base ψ) :=
  stable_meets (fun _ _ _ _ => trivial) hψ.upholds

theorem stable_trying {r : Nat} (hI : SessionState.receiver.Upholds I) :
    Stable (Session.Trying r base I) :=
  stable_meets (fun _ _ _ h => h) hI

/-- Where nothing comes, everything is stable. -/
theorem stable_quiet (h : ∀ s, P s → s.meanwhile = []) : Stable P :=
  fun s hs => by rwa [hear_of_quiet (h s hs)]

theorem Stable.or (h : Stable P) (h' : Stable Q) : Stable fun s => P s ∨ Q s :=
  fun s => Or.imp (h s) (h' s)

theorem Stable.ofExists {ι : Type} {P : ι → Session → Prop} (h : ∀ i, Stable (P i)) :
    Stable fun s => ∃ i, P i s :=
  fun s ⟨i,hs⟩ => ⟨i,h i s hs⟩

theorem Stable.and (h : Stable P) (h' : Stable Q) : Stable fun s => P s ∧ Q s :=
  fun s hs => ⟨h s hs.1,h' s hs.2⟩

theorem stable_const (φ : Prop) : Stable fun _ => φ :=
  fun _ hs => hs

end Session

theorem Session.run_addBlock (space : UInt8) (data : Bytes) (s : Session) :
    (Session.addBlock space data).run s =
      Action.run (match Block.segments space data s.outgoingSegmentSize with
        | .error e => throw (.message e)
        | .ok segments => do
          Session.sendSegments segments
          Action.hear
          Session.waitOutstanding) s :=
  rfl

/-- How waiting for an acknowledgment can fail, apart from sending the message again. -/
inductive Session.WaitFails (s : Session) : SessionError → Prop
  | timeout {m : Message} (ho : s.state.outstanding = some m) :
      WaitFails s (.timeout .send s.retries (some m.text))
  | broken {reason : String} (ho : s.state.outstanding ≠ none) (hf : s.channel.failure = some reason) :
      WaitFails s (.channelBroken reason)

/-- After `action`, started where `P` holds, `Q` holds of what it gives, or `E` of its error. -/
def Action.Triple {α : Type} (P : Session → Prop) (action : Action α) (Q : α → Session → Prop)
    (E : SessionError → Session → Prop) : Prop :=
  ∀ s, P s → match action.run s with
    | (.ok x,s') => Q x s'
    | (.error e,s') => E e s'

namespace Action.Triple
open Session (Stable)

variable {α β : Type} {P P' : Session → Prop} {action : Action α} {Q Q' : α → Session → Prop}
  {E : SessionError → Session → Prop}

theorem mono (h : Triple P action Q E) (hP : ∀ s, P' s → P s) (hQ : ∀ x s, Q x s → Q' x s) :
    Triple P' action Q' E := by
  intro s hs
  have hr := h s (hP s hs)
  split at hr
  · exact hQ _ _ hr
  · exact hr

theorem pre (h : Triple P action Q E) (hP : ∀ s, P' s → P s) : Triple P' action Q E :=
  h.mono hP fun _ _ hs => hs

theorem post (h : Triple P action Q E) (hQ : ∀ x s, Q x s → Q' x s) : Triple P action Q' E :=
  h.mono (fun _ hs => hs) hQ

theorem error {E' : SessionError → Session → Prop} (h : Triple P action Q E)
    (hE : ∀ e s, E e s → E' e s) : Triple P action Q E' := by
  intro s hs
  have hr := h s hs
  split at hr
  · exact hr
  · exact hE _ _ hr

/-- What holds of the session however the action ends. -/
theorem afterwards {R : Session → Prop} {s : Session} (h : Triple P action Q E) (hs : P s)
    (hQ : ∀ x s, Q x s → R s) (hE : ∀ e s, E e s → R s) : R (action.run s).2 := by
  have hr := h s hs
  split at hr
  · next hrun =>
    rw [hrun]
    exact hQ _ _ hr
  · next hrun =>
    rw [hrun]
    exact hE _ _ hr

theorem pure {x : α} (h : ∀ s, P s → Q x s) : Triple P (pure x) Q E :=
  h

theorem throw {e : SessionError} (h : ∀ s, P s → E e s) :
    Triple P (throw e : Action α) Q E :=
  h

theorem bind (h : Triple P action Q E) {f : α → Action β} {R : β → Session → Prop}
    (hf : ∀ x, Triple (Q x) (f x) R E) : Triple P (action >>= f) R E := by
  intro s hs
  have hr := h s hs
  have hrun : (action >>= f).run s = match action.run s with
      | (.ok x,s') => (f x).run s'
      | (.error e,s') => (.error e,s') := by
    change (ExceptT.bindCont f (action.run s).1).run (action.run s).2 = _
    cases action.run s with
    | mk result s' => cases result <;> rfl
  rw [hrun]
  split at hr
  · next x s' _ => exact hf x s' hr
  · exact hr

theorem assume {φ : Prop} (hφ : ∀ s, P s → φ) (h : φ → Triple P action Q E) :
    Triple P action Q E :=
  fun s hs => h (hφ s hs) s hs

/-- What an action does may depend on what holds of the session at its start. -/
theorem byValue {γ : Type} (f : Session → γ) (h : ∀ x, Triple (fun s => P s ∧ f s = x) action Q E) :
    Triple P action Q E :=
  fun s hs => h (f s) s ⟨hs,rfl⟩

theorem or (h : Triple P action Q E) (h' : Triple P' action Q E) :
    Triple (fun s => P s ∨ P' s) action Q E :=
  fun s hs => hs.elim (h s) (h' s)

theorem ofExists {ι : Type} {P : ι → Session → Prop} (h : ∀ i, Triple (P i) action Q E) :
    Triple (fun s => ∃ i, P i s) action Q E :=
  fun s ⟨i,hs⟩ => h i s hs

/-- A step from `P i` to `Q (i + j)`, whichever `i` with `C i` it is. -/
theorem indexed {P Q : Nat → Session → Prop} {C D : Nat → Prop} {action : Action Unit} (j : Nat)
    (h : ∀ i, C i → D (i + j) ∧ Triple (P i) action (fun _ => Q (i + j)) E) :
    Triple (fun s => ∃ i, C i ∧ P i s) action (fun _ s => ∃ i, D i ∧ Q i s) E := by
  refine Triple.ofExists fun i => Triple.assume (φ := C i) (fun _ hs => hs.1) fun hC => ?_
  obtain ⟨hD,ht⟩ := h i hC
  exact ht.mono (fun _ hs => hs.2) fun _ _ hs => ⟨i + j,hD,hs⟩

theorem get : Triple P (get : Action Session) (fun x s => P s ∧ x = s) E :=
  fun _ hs => ⟨hs,rfl⟩

theorem state : Triple P Action.state (fun x s => P s ∧ x = s.state) E :=
  fun _ hs => ⟨hs,rfl⟩

theorem set {t : Session} {Q : PUnit → Session → Prop} (h : Q ⟨⟩ t) : Triple P (set t) Q E :=
  fun _ _ => h

theorem hear (h : Stable P) : Triple P Action.hear (fun _ => P) E :=
  h

/-- Whatever comes behind a step leaves what holds after it. -/
theorem step {action : Action Unit} {R : Session → Prop} (h : Triple P action (fun _ => R) E)
    (hR : Stable R) {rest : Action β} {Q : β → Session → Prop} (hrest : Triple R rest Q E) :
    Triple P (do action; Action.hear; rest) Q E :=
  h.bind fun _ => (hear hR).bind fun _ => hrest

/-- Waiting fails only where there is nothing to find and the link has failed. -/
theorem await {find : SessionState → Option α}
    (hE : ∀ reason s, P s → find s.state = none → s.channel.failure = some reason →
      E (.channelBroken reason) s) :
    Triple P (Action.await find) (fun x s => P s ∧ x = find s.state) E := by
  refine get.bind fun s => ?_
  cases hf : find s.state with
  | some found =>
    refine pure ?_
    rintro _ ⟨hs,rfl⟩
    exact ⟨hs,hf.symm⟩
  | none =>
    cases hc : s.channel.failure with
    | some reason =>
      refine throw ?_
      rintro _ ⟨hs,rfl⟩
      exact hE reason _ hs hf hc
    | none =>
      refine pure ?_
      rintro _ ⟨hs,rfl⟩
      exact ⟨hs,hf.symm⟩

theorem awaitState {done : SessionState → Bool}
    (hE : ∀ reason s, P s → done s.state = false → s.channel.failure = some reason →
      E (.channelBroken reason) s) :
    Triple P (Action.awaitState done) (fun x s => P s ∧ x = done s.state) E := by
  refine (await fun reason s hs hnone hc => hE reason s hs ?_ hc).bind fun found => pure ?_
  · cases hd : done s.state with
    | true => simp [hd] at hnone
    | false => rfl
  · rintro s ⟨hs,rfl⟩
    refine ⟨hs,?_⟩
    cases done s.state <;> rfl

/-- A call that tries as often as the session allows. -/
theorem tries {P : Nat → Session → Prop} {attempt : Nat → Action α}
    (h : ∀ attempts, Triple (P attempts) (attempt attempts) Q E) :
    Triple (fun s => P s.retries s) (do attempt (← MonadState.get).retries) Q E := by
  refine get.bind fun s => (h s.retries).pre ?_
  rintro _ ⟨hs,rfl⟩
  exact hs

/-- What holds with some left to spend holds with nothing left. -/
theorem atZero {P : Nat → Session → Prop} (hless : ∀ n s, P (n + 1) s → P n s) {n : Nat} {s : Session}
    (hs : P n s) : P 0 s := by
  induction n with
  | zero => exact hs
  | succ n ih => exact ih (hless n s hs)

section outstanding

variable {P : Nat → Session → Prop} (hless : ∀ n s, P (n + 1) s → P n s) (hstable : ∀ n, Stable (P n))
  (hE : ∀ n e s, P n s → s.WaitFails e → E e s)
  (hagain : ∀ n m, Triple (fun s => P (n + 1) s ∧ s.state.outstanding = some m)
    (do Action.hear; Functor.discard (Action.transmit m)) (fun _ => P n) E)

include hless hstable hE hagain

/-- `P n` holds where the outstanding message may be sent `n` times more.  It is sent in each of the
attempts, the first perhaps excepted, until it is acknowledged; only if it is not can the attempts
fail. -/
theorem attemptOutstanding (resends : Bool) (attempts : Nat) :
    Triple (P (if resends then attempts else attempts - 1)) (Session.attemptOutstanding resends attempts)
      (fun _ s => P 0 s ∧ s.state.outstanding = none) E := by
  induction attempts generalizing resends with
  | zero =>
    refine state.bind fun state => ?_
    cases ho : state.outstanding with
    | none =>
      simp only [SessionState.outstandingText,ho,Option.map_none]
      refine pure ?_
      rintro s ⟨hs,rfl⟩
      exact ⟨atZero hless hs,ho⟩
    | some message =>
      simp only [SessionState.outstandingText,ho,Option.map_some]
      refine get.bind fun now => throw ?_
      rintro s ⟨⟨hs,rfl⟩,rfl⟩
      exact hE _ _ now hs (.timeout ho)
  | succ attempts ih =>
    have hwait : Triple (P attempts) (do
        if ← Action.awaitState (·.outstanding.isNone) then return
        Action.hear
        Session.attemptOutstanding true attempts)
        (fun _ s => P 0 s ∧ s.state.outstanding = none) E := by
      refine (awaitState fun _ s hs hd hf => hE _ _ s hs (.broken ?_ hf)).bind fun done => ?_
      · exact fun ho => by simp [ho] at hd
      · cases done with
        | true =>
          refine pure ?_
          rintro s ⟨hs,hd⟩
          exact ⟨atZero hless hs,Option.isNone_iff_eq_none.mp hd.symm⟩
        | false =>
          exact ((hear (hstable attempts)).bind fun _ => ih true).pre fun s hs => hs.1
    refine state.bind fun state => ?_
    cases ho : state.outstanding with
    | none =>
      refine pure ?_
      rintro s ⟨hs,rfl⟩
      exact ⟨atZero hless hs,ho⟩
    | some message =>
      cases resends with
      | false => exact ((hear (hstable attempts)).bind fun _ => hwait).pre fun s hs => hs.1
      | true =>
        have hsend := (hagain attempts message).step (hstable attempts) hwait
        simp only [bind_assoc] at hsend
        refine hsend.pre ?_
        rintro s ⟨hs,rfl⟩
        exact ⟨hs,ho⟩

/-- The first wait is for what was sent before. -/
theorem waitOutstandingWithin :
    Triple (fun s => P (s.retries - 1) s) Session.waitOutstanding
      (fun _ s => P 0 s ∧ s.state.outstanding = none) E :=
  tries (P := fun n => P (n - 1)) (attemptOutstanding hless hstable hE hagain false)

end outstanding

/-- What sending the outstanding message again keeps is kept until it is acknowledged.  It may be
acknowledged already when it is sent again; `A m` holds then. -/
theorem waitOutstanding {A : Message → Session → Prop} (hP : Stable P) (hA : ∀ m, Stable (A m))
    (hE : ∀ e s, P s → s.WaitFails e → E e s) (hlook : ∀ m s, P s → s.state.outstanding = some m → A m s)
    (hagain : ∀ m, Triple (A m) (Functor.discard (Action.transmit m)) (fun _ => P) E) :
    Triple P Session.waitOutstanding (fun _ s => P s ∧ s.state.outstanding = none) E := by
  refine waitOutstandingWithin (P := fun _ => P) (fun _ _ hs => hs) (fun _ => hP) (fun _ => hE) fun _ m => ?_
  exact ((hear (hA m)).bind fun _ => hagain m).pre fun s hs => hlook m s hs.1 hs.2

/-- Where nothing is outstanding there is nothing to wait for. -/
theorem waitNothing (ho : ∀ s, P s → s.state.outstanding = none) :
    Triple P Session.waitOutstanding (fun _ => P) E := by
  refine tries (P := fun _ => P) fun attempts => ?_
  cases attempts <;>
  · refine state.bind fun state => assume (φ := state.outstanding = none) ?_ fun hnone => ?_
    · rintro s ⟨hs,rfl⟩
      exact ho s hs
    · simp only [SessionState.outstandingText,hnone,Option.map_none]
      exact pure fun s hs => hs.1

/-- In each attempt at the handshake the host takes its parameters back, waits until nothing is
outstanding and tells them anew; `H n` holds where `n` attempts are left, and `S n` where what the host
has told is being waited for and `n` attempts are left then. -/
theorem attemptSyncEach {H G F T : Nat → Bool → Session → Prop} {S : Nat → Session → Prop}
    {R : Session → Prop} (hG : ∀ n reset, Stable (G n reset)) (hF : ∀ n reset, Stable (F n reset))
    (hT : ∀ n reset, Stable (T n reset)) (hS : ∀ n, Stable (S n)) (hH : ∀ n, Stable (H n false))
    (hgive : ∀ n reset, Triple (H (n + 1) reset) (Action.update (.giveUp .sync)) (fun _ => G n reset) E)
    (hwait : ∀ n reset, Triple (G n reset) Session.waitOutstanding (fun _ => F n reset) E)
    (hrecord : ∀ n reset, Triple (F n reset) (Action.update (.record (.sync (.host reset))))
      (fun _ => T n reset) E)
    (hsend : ∀ n reset, Triple (T n reset) (Functor.discard (Action.transmit (.sync (.host reset))))
      (fun _ => S n) E)
    (hdone : ∀ n s, S n s → s.state.isSynchronized = true → R s)
    (hnext : ∀ n s, S n s → s.state.isSynchronized = false → H n false s)
    (hlost : ∀ n reason s, S n s → s.channel.failure = some reason → E (.channelBroken reason) s)
    (hout : ∀ reset s, H 0 reset s →
      E (.timeout .synchronize s.retries s.state.outstandingText) s)
    (reset : Bool) (attempts : Nat) :
    Triple (H attempts reset) (Session.attemptSync reset attempts) (fun _ => R) E := by
  induction attempts generalizing reset with
  | zero =>
    refine get.bind fun now => state.bind fun state => throw ?_
    rintro s ⟨⟨hs,rfl⟩,rfl⟩
    exact hout reset now hs
  | succ attempts ih =>
    refine (hgive attempts reset).step (hG attempts reset) ?_
    refine (hwait attempts reset).step (hF attempts reset) ?_
    refine (hrecord attempts reset).step (hT attempts reset) ?_
    refine (hsend attempts reset).step (hS attempts) ?_
    refine (awaitState fun reason s hs _ hf => hlost _ reason s hs hf).bind fun done => ?_
    cases done with
    | true => exact pure fun s hs => hdone _ s hs.1 hs.2.symm
    | false =>
      exact ((hear (hH attempts)).bind fun _ => ih false).pre fun s hs => hnext _ s hs.1 hs.2.symm

/-- The same where it makes no difference how an attempt fails; `P n` holds where `n` attempts are
left. -/
theorem attemptSync {P G F : Nat → Session → Prop} {T : Nat → Bool → Session → Prop}
    (hless : ∀ n s, P (n + 1) s → P n s) (hP : ∀ n, Stable (P n)) (hG : ∀ n, Stable (G n))
    (hF : ∀ n, Stable (F n)) (hT : ∀ n reset, Stable (T n reset)) (hE : ∀ n e s, P n s → E e s)
    (hgive : ∀ n, Triple (P (n + 1)) (Action.update (.giveUp .sync)) (fun _ => G n) E)
    (hwait : ∀ n, Triple (G n) Session.waitOutstanding (fun _ => F n) E)
    (hrecord : ∀ n reset, Triple (F n) (Action.update (.record (.sync (.host reset))))
      (fun _ => T n reset) E)
    (hsend : ∀ n reset, Triple (T n reset) (Functor.discard (Action.transmit (.sync (.host reset))))
      (fun _ => P n) E)
    (reset : Bool) (attempts : Nat) :
    Triple (P attempts) (Session.attemptSync reset attempts)
      (fun _ s => P 0 s ∧ s.state.isSynchronized = true) E :=
  attemptSyncEach (H := fun n _ => P n) (S := P) (fun n _ => hG n) (fun n _ => hF n) hT hP hP
    (fun n _ => hgive n) (fun n _ => hwait n) hrecord hsend (fun _ _ hs hd => ⟨atZero hless hs,hd⟩)
    (fun _ _ hs _ => hs) (fun n _ s hs _ => hE n _ s hs) (fun _ s hs => hE 0 _ s hs) reset attempts

/-- A message that waits for an acknowledgment is recorded before it is sent. -/
theorem postMessage {R : Session → Prop} {message : Message} {Q : Unit → Session → Prop} (hR : Stable R)
    (hrecord : Session.isTracked message.kind = true →
      Triple P (Action.update (.record message)) (fun _ => R) E)
    (hfirst : Session.isTracked message.kind = true →
      Triple R (Functor.discard (Action.transmit message)) Q E)
    (huntracked : Session.isTracked message.kind = false →
      Triple P (Functor.discard (Action.transmit message)) Q E) :
    Triple P (Session.post message) Q E := by
  unfold Session.post
  cases hm : Session.isTracked message.kind with
  | true => exact (hrecord hm).step hR (hfirst hm)
  | false => exact huntracked hm

/-- A message is sent once it may be, with the handshake before it or without, and nothing is
outstanding. -/
theorem send {R F : Session → Prop} {message : Message} {Q : Unit → Session → Prop}
    (hR : Stable R) (hF : Stable F)
    (hready : ∀ s, P s → Session.needsNoSync message.kind = true ∨ s.state.syncedOutgoing = true → R s)
    (hsync : Session.needsNoSync message.kind = false →
      Triple (fun s => P s ∧ s.state.syncedOutgoing = false) (do Action.hear; Session.synchronize)
        (fun _ => R) E)
    (hwait : Triple R Session.waitOutstanding (fun _ => F) E) (hpost : Triple F (Session.post message) Q E) :
    Triple P (Session.send message) Q E := by
  have hensure : Triple P (Session.ensureSync message.kind) (fun _ => R) E := by
    unfold Session.ensureSync
    cases hneeds : Session.needsNoSync message.kind with
    | true => exact pure fun s hs => hready s hs (.inl hneeds)
    | false =>
      refine state.bind fun state => ?_
      cases hsynced : state.syncedOutgoing with
      | true =>
        refine (hear hR).pre ?_
        rintro s ⟨hs,rfl⟩
        exact hready s hs (.inr hsynced)
      | false =>
        dsimp only [Bool.not_false,↓reduceIte]
        rw [← bind_assoc]
        refine Triple.bind ((hsync hneeds).pre ?_) fun _ => hear hR
        rintro s ⟨hs,rfl⟩
        exact ⟨hs,hsynced⟩
  exact hensure.bind fun _ => hwait.step hF hpost

/-- Where a message may be sent, no handshake goes before it. -/
theorem synced {message : Message} {Q : α → Session → Prop}
    (hP : ∀ s, P s → Session.needsNoSync message.kind = true ∨ s.state.syncedOutgoing = true)
    (hneeds : Session.needsNoSync message.kind = false) :
    Triple (fun s => P s ∧ s.state.syncedOutgoing = false) action Q E := by
  refine assume (φ := False) ?_ False.elim
  rintro s ⟨hs,hnot⟩
  rcases hP s hs with hb | hb
  · cases hneeds.symm.trans hb
  · cases hnot.symm.trans hb

/-- A question is asked in so many attempts; `H again n` holds where `n` of them are left, and `A n` once the
request of an attempt is sent. -/
theorem ask {query : Query α} {H : Bool → Nat → Session → Prop} {A : Nat → Session → Prop}
    (hA : ∀ n, Stable (A n))
    (hfirst : ∀ n, Triple (H false (n + 1)) (do Action.hear; Session.send query.request) (fun _ => A n) E)
    (hagain : ∀ n, Triple (H true (n + 1)) (do
      Action.hear
      Action.update (.giveUp query.request.kind)
      Action.hear
      Session.send query.request) (fun _ => A n) E)
    (hlost : ∀ n reason s, A n s → s.channel.failure = some reason → E (.channelBroken reason) s)
    (hfound : ∀ n x, Triple (fun s => A n s ∧ some x = query.answer s.state) (Action.update query.forget)
      (fun _ => Q x) E)
    (hnext : ∀ n s, A n s → query.answer s.state = none → H true n s)
    (hout : ∀ again s, H again 0 s →
      E (.timeout query.operation s.retries (some query.request.text)) s)
    (again : Bool) (attempts : Nat) :
    Triple (H again attempts) (Session.ask query again attempts) Q E := by
  induction attempts generalizing again with
  | zero =>
    refine get.bind fun now => throw ?_
    rintro s ⟨hs,rfl⟩
    exact hout again now hs
  | succ attempts ih =>
    have hanswer : ∀ next : Option α → Action α,
        (∀ found, next (some found) = (do Action.update query.forget; return found)) →
        next none = Session.ask query true attempts →
        Triple (A attempts) (do Action.hear; next (← Action.await query.answer)) Q E := by
      intro next hsome hnone
      refine (hear (hA attempts)).bind fun _ => ?_
      refine (await fun reason s hs _ hf => hlost _ reason s hs hf).bind fun found => ?_
      cases found with
      | some found =>
        rw [hsome]
        exact (hfound attempts found).bind fun _ => pure fun _ hs => hs
      | none =>
        rw [hnone]
        exact (ih true).pre fun s hs => hnext _ s hs.1 hs.2.symm
    cases again with
    | false =>
      change Triple _ (Action.hear >>= fun _ => Session.send query.request >>= fun _ => Action.hear >>= fun _ =>
        Action.await query.answer >>= _) Q E
      rw [← bind_assoc]
      exact (hfirst attempts).bind fun _ => hanswer _ (fun _ => rfl) rfl
    | true =>
      change Triple _ (Action.hear >>= fun _ => Action.update (.giveUp query.request.kind) >>= fun _ =>
        Action.hear >>= fun _ => Session.send query.request >>= fun _ => Action.hear >>= fun _ =>
          Action.await query.answer >>= _) Q E
      have hassoc {first second third fourth : Action Unit} {rest : Action α} :
          (first >>= fun _ => second >>= fun _ => third >>= fun _ => fourth >>= fun _ => rest) =
            ((first >>= fun _ => second >>= fun _ => third >>= fun _ => fourth) >>= fun _ => rest) := by
        simp only [bind_assoc]
      rw [hassoc]
      exact (hagain attempts).bind fun _ => hanswer _ (fun _ => rfl) rfl

/-- Segments are sent one after another; `P rest` holds where these are left. -/
theorem sendSegments {P : List Block → Session → Prop}
    (h : ∀ segment rest, Triple (P (segment :: rest)) (do Action.hear; Session.send (.memAddBlock segment))
      (fun _ => P rest) E) (segments : List Block) :
    Triple (P segments) (Session.sendSegments segments) (fun _ => P []) E := by
  induction segments with
  | nil => exact pure fun _ hs => hs
  | cons segment rest ih =>
    unfold Session.sendSegments
    rw [← bind_assoc]
    exact (h segment rest).bind fun _ => ih

/-- A block is sent in the segments that the session cuts it into at the start of the call. -/
theorem addBlock {space : UInt8} {data : Bytes} {P : Except MessageError (List Block) → Session → Prop}
    {R : List Block → Session → Prop} {Q : Unit → Session → Prop} (hR : ∀ segments, Stable (R segments))
    (hsegments : ∀ segments, Triple (P (.ok segments)) (Session.sendSegments segments)
      (fun _ => R segments) E)
    (hwait : ∀ segments, Triple (R segments) Session.waitOutstanding Q E)
    (hE : ∀ e s, P (.error e) s → E (.message e) s) :
    Triple (fun s => P (Block.segments space data s.outgoingSegmentSize) s)
      (Session.addBlock space data) Q E := by
  intro s hs
  rw [Session.run_addBlock]
  cases hseg : Block.segments space data s.outgoingSegmentSize with
  | error e =>
    rw [hseg] at hs
    exact hE e s hs
  | ok segments =>
    rw [hseg] at hs
    exact (hsegments segments).step (hR segments) (hwait segments) s hs

theorem drainOutput {Q : Session → Prop} (htake : Triple P (Action.update .takeLines) (fun _ => Q) E) :
    Triple P Session.drainOutput (fun _ => Q) E :=
  state.bind fun _ => (htake.pre fun _ hs => hs.1).bind fun _ => pure fun _ hs => hs

/-- A line is taken if there is one. -/
theorem nextOutput {Q : Session → Prop} (htake : Triple P (Action.update .takeLine) (fun _ => Q) E)
    (hnone : ∀ s, P s → Q s) (hlost : ∀ reason s, P s → E (.channelBroken reason) s) :
    Triple P Session.nextOutput (fun _ => Q) E := by
  refine (await fun reason s hs _ _ => hlost reason s hs).bind fun line => ?_
  cases line with
  | none => exact pure fun s hs => hnone s hs.1
  | some line => exact (htake.pre fun _ hs => hs.1).bind fun _ => pure fun _ hs => hs

section meets

variable {φ : Nat → List (List Arrival) → Prop} {base : List (Event SessionChange)}
  {I J K : Bool → List (Event SessionChange) → SessionState → Prop}

theorem update {change : SessionChange}
    (h : ∀ connected events state, I connected events state →
      J connected (.changed change :: events) (state.change change)) :
    Triple (Session.Meets φ base I) (Action.update change) (fun _ => Session.Meets φ base J) E := by
  rintro s ⟨hφ,events,hl,hI⟩
  exact ⟨hφ,.changed change :: events,congrArg (_ :: ·) hl,h _ events s.state hI⟩

/-- A message that is sent is the next event, and host and target talk about it.  If its writing breaks
off, or it cannot be sent, host and target talk all the same. -/
theorem transmitOr {message : Message} (hJ : SessionState.receiver.Upholds J)
    (hK : SessionState.receiver.Upholds K)
    (hsent : ∀ {events state n frame}, I true events state → message.frame n = .ok frame →
      J true (.sent frame :: events) state)
    (hunsent : ∀ {events state n frame}, I true events state → message.frame n = .ok frame →
      K true (.unsent frame :: events) state)
    (hrefused : ∀ {connected events state}, I connected events state →
      (connected = true → message.Unsendable) → K connected events state)
    (hE : ∀ e s, e.isTimeout = false → s.Meets φ base K → E e s) :
    Triple (Session.Meets φ base I) (Functor.discard (Action.transmit message))
      (fun _ => Session.Meets φ base J) E := by
  suffices hsend : Triple (Session.Meets φ base I) (Action.transmit message)
      (fun _ => Session.Meets φ base J) E from hsend.bind fun _ => pure fun _ hs => hs
  refine get.bind fun s => assume (φ := s.Meets φ base I) (by rintro _ ⟨hs,rfl⟩; exact hs) ?_
  rintro ⟨hφ,events,hl,hI⟩
  have hfail {e : SessionError} {c : Channel SessionState SessionChange} (he : e.isTimeout = false)
      (hc : Channel.Meets base K c) :
      E e { s with channel := c.settle SessionState.receiver } :=
    hE e _ he ⟨hφ,hc.settle hK⟩
  -- The frame is sent, or its writing breaks off, or there is nothing to write or nothing to write to.
  rcases s.channel.transmit_cases message with ⟨hc,n,frame,hf,⟨link,ht⟩ | ⟨e,link,ht⟩⟩ | ⟨hu,e,ht,he⟩
  · have hconnected : Channel.isConnected
        { s.channel with lastSequence := frame.sequence, link, log := .sent frame :: s.channel.log } =
        true := hc
    have hmeets : Channel.Meets base J
        { s.channel with lastSequence := frame.sequence, link, log := .sent frame :: s.channel.log } := by
      refine ⟨.sent frame :: events,by rw [List.cons_append,← hl],?_⟩
      rw [hconnected]
      exact hsent (hc ▸ hI) hf
    unfold Channel.exchange
    rw [ht]
    refine (set (t := { s with channel := _ }) ?_).bind fun _ => pure fun _ hs => hs
    exact ⟨hφ,hmeets.settle hJ⟩
  · have hconnected : Channel.isConnected { s.channel with link, log := .unsent frame :: s.channel.log } =
        true := hc
    have hmeets : Channel.Meets base K { s.channel with link, log := .unsent frame :: s.channel.log } := by
      refine ⟨.unsent frame :: events,by rw [List.cons_append,← hl],?_⟩
      rw [hconnected]
      exact hunsent (hc ▸ hI) hf
    unfold Channel.exchange
    rw [ht]
    exact (set (Q := fun _ => E _) (hfail rfl hmeets)).bind fun _ => throw fun _ hs => hs
  · unfold Channel.exchange
    rw [ht]
    refine (set (Q := fun _ => E _) (hfail he ?_)).bind fun _ => throw fun _ hs => hs
    exact ⟨events,hl,hrefused hI hu⟩

/-- The same where it makes no difference how much of the message is written. -/
theorem transmit {message : Message} (hI : SessionState.receiver.Upholds I)
    (hJ : SessionState.receiver.Upholds J)
    (h : ∀ {events state n frame event}, I true events state → message.frame n = .ok frame →
      event.Tries frame → J true (event :: events) state)
    (hE : ∀ e s, e.isTimeout = false →
      s.Meets φ base (fun connected events state => I connected events state ∨ J connected events state) →
        E e s) :
    Triple (Session.Meets φ base I) (Functor.discard (Action.transmit message))
      (fun _ => Session.Meets φ base J) E :=
  transmitOr hJ (hI.or hJ) (fun hs hf => h hs hf .sent) (fun hs hf => .inr (h hs hf .unsent))
    (fun hs _ => .inl hs) hE

end meets

end Action.Triple

end RemotePyMite
