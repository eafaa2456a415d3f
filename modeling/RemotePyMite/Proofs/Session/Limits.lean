import RemotePyMite.Proofs.Session.Effort
import RemotePyMite.Proofs.Session.Turn

/-! # How much a call sends

The retries of the loops of a call add up and do not multiply, because a loop inside another one finds
something outstanding only when it is entered first.
-/
namespace RemotePyMite

namespace Session
open SessionState RemotePyMite.Action

/-- How many frames a call with so many retries may send for a block. -/
def blockLimit (r : Nat) : Except MessageError (List Block) → Nat
  | .ok segments => (segments.length + 3) * r - 2
  | .error _ => 0

/-- How many frames a call may send if the target refuses none. -/
def Call.limit (s : Session) : Call → Nat
  | .waitOutstanding => s.retries - 1
  | .synchronize => 2 * s.retries - 1
  | .send _ | .startThread _ | .sendAutorunList _ => 3 * s.retries - 1
  | .readThreadList | .readMemoryMap | .readAutorunList => 4 * s.retries - 2
  | .addBlock space data => blockLimit s.retries (Block.segments space data s.outgoingSegmentSize)
  | .addModule name source build =>
    match build name source with
    | .ok image => blockLimit s.retries (Block.segments moduleSpace image s.outgoingSegmentSize)
    | .error _ => 0
  | .drainOutput | .nextOutput | .terminate => 0

variable {start : SessionState} {r limit n k n' k' : Nat} {base : History}
  {ψ φ : History → SessionState → Prop} {m : Message}

/-- A session that can afford to send so much more, and of which `ψ` holds. -/
def Spends (start : SessionState) (r limit : Nat) (base : History) (ψ : History → SessionState → Prop)
    (n k : Nat) (s : Session) : Prop :=
  s.Meets (fun retries _ => retries = r) base fun _ log state =>
    Affords start r limit n k false log state ∧ ψ log state

/-- The same for one that can afford to send the message recorded last although it is cleared. -/
def Owes (start : SessionState) (r limit : Nat) (base : History) (ψ : History → SessionState → Prop)
    (n k : Nat) (s : Session) : Prop :=
  s.Meets (fun retries _ => retries = r) base fun _ log state =>
    Affords start r limit n k true log state ∧ ψ log state

/-- A call that fails has kept within its limit too. -/
def Within (start : SessionState) (r limit : Nat) (base : History) (_ : SessionError) (s : Session) :
    Prop :=
  s.Since base (Affords start r limit 0 0 false)

theorem Spends.mono {s : Session} (h : Spends start r limit base ψ n k s) (hn : n' ≤ n) (hk : k' ≤ k)
    (hψ : ∀ log state, ψ log state → φ log state) : Spends start r limit base φ n' k' s :=
  Session.Meets.mono h fun _ _ _ hs => ⟨hs.1.mono hn hk,hψ _ _ hs.2⟩

theorem Spends.less {s : Session} (h : Spends start r limit base ψ n k s) (hn : n' ≤ n) (hk : k' ≤ k) :
    Spends start r limit base ψ n' k' s :=
  h.mono hn hk fun _ _ hs => hs

theorem Spends.and {s : Session} (h : Spends start r limit base ψ n k s) {χ : SessionState → Prop}
    (hχ : χ s.state) : Spends start r limit base (fun log state => ψ log state ∧ χ state) n k s :=
  (Session.Meets.and h hχ).mono fun _ _ _ hs => ⟨hs.1.1,hs.1.2,hs.2⟩

theorem Spends.free {s : Session}
    (h : Spends start r limit base (fun log state => ψ log state ∧ Free log state) n k s) :
    Spends start r limit base (fun log state => ψ log state ∧ Free log state) n k' s :=
  Session.Meets.mono h fun _ _ _ hs => ⟨hs.1.free hs.2.2,hs.2⟩

theorem Spends.see {s : Session} (h : Spends start r limit base ψ n k s) (ho : s.state.outstanding = some m) :
    Owes start r limit base ψ n k s :=
  (Session.Meets.and h (χ := (·.outstanding = some m)) ho).mono fun _ _ _ hs =>
    ⟨hs.1.1.see (by simp [hs.2]),hs.1.2⟩

theorem Spends.within {s : Session} (h : Spends start r limit base ψ n k s) :
    s.Since base (Affords start r limit 0 0 false) :=
  Session.Meets.since h fun _ _ _ hs => hs.1.mono (Nat.zero_le n) (Nat.zero_le k)

theorem Steady.affords (hψ : Steady ψ) {seen : Bool} : SessionState.receiver.Upholds fun _ log state =>
    Affords start r limit n k seen log state ∧ ψ log state :=
  keeps_affords.upholds.and hψ.keeps.upholds

theorem stable_spends (hψ : Steady ψ) : Stable (Spends start r limit base ψ n k) :=
  stable_trying hψ.affords

theorem stable_owes (hψ : Steady ψ) : Stable (Owes start r limit base ψ n k) :=
  stable_trying hψ.affords

theorem spends_update {change : SessionChange} (hc : ∀ m, change ≠ .record m)
    (hψ : ∀ log state, ψ log state → φ (.changed change :: log) (state.change change))
    {E : SessionError → Session → Prop} :
    Triple (Spends start r limit base ψ n k) (update change)
      (fun _ => Spends start r limit base φ n k) E := by
  refine Triple.update fun _ log state ⟨h,hs⟩ => ⟨?_,hψ _ _ hs⟩
  refine h.idle (congrArg (·.change change) h.state_eq) rfl ?_ (outstanding_change state hc)
  cases change with
  | record m => exact absurd rfl (hc m)
  | _ => simp [tries,isTry,Event.frame?]

theorem spends_harmless {change : SessionChange} (hc : ∀ m, change ≠ .record m) :
    Triple (Spends start r limit base (fun _ _ => True) n k) (update change)
      (fun _ => Spends start r limit base (fun _ _ => True) n k) (Within start r limit base) :=
  spends_update hc fun _ _ _ => trivial

theorem spends_record (m : Message)
    (hψ : ∀ log state, ψ log state → φ (.changed (.record m) :: log) (state.change (.record m)))
    {E : SessionError → Session → Prop} :
    Triple (Spends start r limit base ψ n k) (update (.record m))
      (fun _ => Owes start r limit base φ n r) E :=
  Triple.update fun _ _ _ ⟨h,hs⟩ => ⟨h.recorded m,hψ _ _ hs⟩

/-- A call that fails while it sends has kept within its limit. -/
theorem within_of_meets {s : Session} {e : SessionError} {seen seen' : Bool}
    (h : s.Trying r base fun _ log state =>
      (Affords start r limit n k seen log state ∧ ψ log state) ∨
        Affords start r limit n' k' seen' log state ∧ φ log state) :
    Within start r limit base e s :=
  Session.Meets.since h fun _ _ _ hs => hs.elim (fun hs => hs.1.mono (Nat.zero_le _) (Nat.zero_le _))
    fun hs => hs.1.mono (Nat.zero_le _) (Nat.zero_le _)

/-- Sending what was recorded last costs one frame and one try. -/
theorem owes_transmit (hψ : Steady ψ) (m : Message) :
    Triple (Owes start r limit base ψ (n + 1) (k + 1)) (discard <| transmit m)
      (fun _ => Spends start r limit base ψ n k) (Within start r limit base) := by
  have hsend : Triple (Owes start r limit base ψ (n + 1) (k + 1)) (discard <| transmit m)
      (fun _ => Owes start r limit base ψ n k) (Within start r limit base) :=
    Triple.transmit hψ.affords hψ.affords (fun hs _ ht => ⟨hs.1.again ht,hψ.grow _ hs.2⟩)
      fun e s _ hs => within_of_meets hs
  refine hsend.post fun _ s hs => Session.Meets.mono hs fun _ _ _ h => ?_
  exact ⟨h.1.mono (Nat.le_refl n) (Nat.le_refl k),h.2⟩

theorem spends_waitOutstanding (hψ : Steady ψ) :
    Triple (Spends start r limit base ψ (n + (r - 1)) (r - 1)) waitOutstanding
      (fun _ => Spends start r limit base (fun log state => ψ log state ∧ Free log state) n k)
      (Within start r limit base) := by
  refine ((Triple.waitOutstandingWithin (P := fun j => Spends start r limit base ψ (n + j) j)
    ?_ (fun _ => stable_spends hψ) (fun _ e s hs _ => hs.within) fun j m => ?_).pre ?_).post ?_
  · exact fun j s hs => hs.less (Nat.le_succ _) (Nat.le_succ _)
  · exact ((Triple.hear (stable_owes hψ)).bind fun _ => owes_transmit hψ m).pre fun s hs => hs.1.see hs.2
  · rintro s hs
    rw [hs.1]
    exact hs
  · exact fun _ s hs => (hs.1.and (χ := (·.outstanding = none)) hs.2).free

theorem spends_waitNothing :
    Triple (Spends start r limit base (fun log state => ψ log state ∧ Free log state) n k) waitOutstanding
      (fun _ => Spends start r limit base (fun log state => ψ log state ∧ Free log state) n k)
      (Within start r limit base) := by
  refine Triple.waitNothing ?_
  rintro s ⟨-,log,-,-,-,ho⟩
  exact ho

/-- Where nothing is outstanding, a message is recorded if it has to be, and sent once. -/
theorem spends_post (hr : 1 ≤ r) (m : Message) :
    Triple (Spends start r limit base (fun log state => MayBegin m state ∧ Free log state) (n + 1) k)
      (post m)
      (fun _ => Spends start r limit base (fun log state => MayBegin m state ∧ Asked m log state) n (r - 1))
      (Within start r limit base) := by
  have hsteady : Steady fun log state => MayBegin m state ∧ Asked m log state :=
    (steady_mayBegin m).and (steady_asked m)
  refine Triple.postMessage
    (R := Owes start r limit base (fun log state => MayBegin m state ∧ Asked m log state) (n + 1) r)
    (stable_owes hsteady) (fun _ => spends_record m ?_) (fun _ => ?_) fun hm => ?_
  · rintro log state ⟨hb,-⟩
    exact ⟨hb,.inr ⟨rfl,List.mem_cons_self⟩⟩
  · obtain ⟨more,rfl⟩ := Nat.exists_eq_add_of_le' hr
    exact owes_transmit hsteady m
  · have hfree : Steady fun log state => MayBegin m state ∧ Free log state :=
      (steady_mayBegin m).and steady_free
    refine (Triple.transmit (hfree.affords (k := k)) (hfree.affords (k := r - 1)) (fun hs hf ht =>
      ⟨hs.1.untracked hf ht hm hs.2.2,hfree.grow _ hs.2⟩) fun e s _ hs => within_of_meets hs).post ?_
    exact fun _ s hs => Session.Meets.mono hs fun _ _ _ h => ⟨h.1,h.2.1,.inl h.2.2⟩

/-- Before an attempt at the handshake either the parameters that an earlier one told may be
outstanding, or it is the first and may have to wait for something else. -/
def Attempts (start : SessionState) (r limit : Nat) (base : History) (n : Nat) (s : Session) : Prop :=
  (∃ reset, Spends start r limit base (Asked (.sync (.host reset))) n (r - 1) s) ∨
    Spends start r limit base (fun _ _ => True) (n + (r - 1)) (r - 1) s

theorem Attempts.less {s : Session} (h : Attempts start r limit base n s) (hn : n' ≤ n) :
    Attempts start r limit base n' s := by
  rcases h with ⟨reset,hs⟩ | hs
  · exact .inl ⟨reset,hs.less hn (Nat.le_refl _)⟩
  · exact .inr (hs.less (Nat.add_le_add_right hn _) (Nat.le_refl _))

theorem Attempts.spends {s : Session} (h : Attempts start r limit base n s) :
    Spends start r limit base (fun _ _ => True) n (r - 1) s := by
  rcases h with ⟨reset,hs⟩ | hs
  · exact hs.mono (Nat.le_refl _) (Nat.le_refl _) fun _ _ _ => trivial
  · exact hs.less (Nat.le_add_right _ _) (Nat.le_refl _)

theorem stable_attempts : Stable (Attempts start r limit base n) :=
  (Stable.ofExists fun _ => stable_spends (steady_asked _)).or (stable_spends steady_true)

theorem spends_giveUpSync :
    Triple (Attempts start r limit base n) (update (.giveUp .sync))
      (fun _ s => Spends start r limit base (fun log state => True ∧ Free log state) n r s ∨
        Spends start r limit base (fun _ _ => True) (n + (r - 1)) (r - 1) s)
      (Within start r limit base) := by
  refine Triple.or (Triple.ofExists fun reset => ?_)
    ((spends_harmless (by simp)).post fun _ _ hs => .inr hs)
  have hgive : Triple (Spends start r limit base (Asked (.sync (.host reset))) n (r - 1))
      (update (.giveUp .sync))
      (fun _ => Spends start r limit base (fun log state => True ∧ Free log state) n (r - 1))
      (Within start r limit base) :=
    spends_update (by simp) fun log state h => ⟨trivial,free_of_asked h⟩
  exact hgive.post fun _ _ hs => .inl hs.free

/-- Only the first attempt at the handshake can find something outstanding that it has to wait for. -/
theorem spends_attemptSync (hr : 1 ≤ r) (reset : Bool) (attempts : Nat) :
    Triple (Attempts start r limit base (n + attempts)) (attemptSync reset attempts)
      (fun _ => Spends start r limit base Synced n (r - 1)) (Within start r limit base) := by
  have hsync := Triple.attemptSync (P := fun j => Attempts start r limit base (n + j))
    (fun _ _ hs => hs.less (Nat.le_succ _)) (fun _ => stable_attempts)
    (fun _ => (stable_spends (steady_true.and steady_free)).or (stable_spends steady_true))
    (fun _ => stable_spends (steady_true.and steady_free)) (fun _ reset => stable_owes (steady_asked _))
    (fun _ _ _ hs => hs.spends.within) (fun _ => spends_giveUpSync)
    (fun _ => spends_waitNothing.or (spends_waitOutstanding steady_true))
    (T := fun j reset => Owes start r limit base (Asked (.sync (.host reset))) (n + j + 1) (r - 1 + 1)) ?_ ?_
  · refine (hsync reset attempts).post ?_
    rintro _ s ⟨hs,hd⟩
    rw [isSynchronized,Bool.and_eq_true] at hd
    exact (hs.spends.and (χ := (·.syncedOutgoing = true)) hd.2).mono (Nat.le_refl _) (Nat.le_refl _)
      fun _ _ h => h.2
  · intro j reset
    rw [Nat.sub_add_cancel hr]
    exact spends_record _ fun _ _ _ => .inr ⟨rfl,List.mem_cons_self⟩
  · exact fun j reset => (owes_transmit (steady_asked _) _).post fun _ s hs => .inl ⟨reset,hs⟩

/-- The parameters of the host can still be outstanding when the handshake is done. -/
theorem spends_synchronize (hr : 1 ≤ r) :
    Triple (Spends start r limit base (fun _ _ => True) (n + (2 * r - 1)) (r - 1)) synchronize
      (fun _ => Spends start r limit base Synced n (r - 1)) (Within start r limit base) := by
  refine (spends_harmless (by simp)).step (stable_spends steady_true)
    ((Triple.tries (spends_attemptSync hr true)).pre ?_)
  intro s hs
  rw [hs.1]
  exact .inr (hs.less (by omega) (Nat.le_refl _))

theorem stable_spendsFree (m : Message) :
    Stable (Spends start r limit base (fun log state => MayBegin m state ∧ Free log state) n k) :=
  stable_spends ((steady_mayBegin m).and steady_free)

theorem stable_spendsAsked (m : Message) :
    Stable (Spends start r limit base (fun log state => MayBegin m state ∧ Asked m log state) n k) :=
  stable_spends ((steady_mayBegin m).and (steady_asked m))

/-- A message that may be sent is sent once nothing is outstanding. -/
theorem spends_rest (hr : 1 ≤ r) {P : Session → Prop}
    (hready : ∀ s, P s → needsNoSync m.kind = true ∨ s.state.syncedOutgoing = true →
      Spends start r limit base (fun _ => MayBegin m) (n + r) (r - 1) s)
    (hsync : needsNoSync m.kind = false → Triple (fun s => P s ∧ s.state.syncedOutgoing = false)
      (do Action.hear; synchronize)
      (fun _ => Spends start r limit base (fun _ => MayBegin m) (n + r) (r - 1)) (Within start r limit base)) :
    Triple P (send m)
      (fun _ => Spends start r limit base (fun log state => MayBegin m state ∧ Asked m log state) n (r - 1))
      (Within start r limit base) := by
  refine Triple.send (stable_spends (steady_mayBegin m)) (stable_spendsFree m) hready hsync ?_
    (spends_post (k := r) hr m)
  refine (spends_waitOutstanding (n := n + 1) (steady_mayBegin m)).pre fun s hs => ?_
  exact hs.less (by omega) (Nat.le_refl _)

theorem spends_send (hr : 1 ≤ r) (m : Message) :
    Triple (Spends start r limit base (fun _ _ => True) (n + (3 * r - 1)) (r - 1)) (send m)
      (fun _ => Spends start r limit base (fun log state => MayBegin m state ∧ Asked m log state) n (r - 1))
      (Within start r limit base) := by
  refine spends_rest hr ?_ fun _ => ?_
  · intro s hs hb
    exact (hs.and (χ := MayBegin m) hb).mono (by omega) (Nat.le_refl _) fun _ _ h => h.2
  · refine (((Triple.hear (stable_spends steady_true)).bind fun _ =>
      spends_synchronize (n := n + r) hr).pre ?_).post ?_
    · exact fun s hs => hs.1.less (by omega) (Nat.le_refl _)
    · exact fun _ s hs => hs.mono (Nat.le_refl _) (Nat.le_refl _) fun _ _ h => .inr h

theorem Spends.mayBegin {s : Session}
    (h : Spends start r limit base (fun log state => MayBegin m state ∧ ψ log state) n k s) :
    needsNoSync m.kind = true ∨ s.state.syncedOutgoing = true := by
  obtain ⟨-,log,-,-,hb,-⟩ := h
  exact hb

/-- A message that is asked for again is taken back and sent once more. -/
theorem spends_takeBack :
    Triple (Spends start r limit base (fun log state => MayBegin m state ∧ Asked m log state) n k)
      (update (.giveUp m.kind))
      (fun _ => Spends start r limit base (fun log state => MayBegin m state ∧ Free log state) n k)
      (Within start r limit base) := by
  refine spends_update (by simp) ?_
  rintro log state ⟨hb,ho⟩
  exact ⟨hb.imp_right (handshake_dropOutstanding state m.kind).2.1.trans,free_of_asked ho⟩

theorem spends_sendFree (hr : 1 ≤ r) (m : Message) :
    Triple (Spends start r limit base (fun log state => MayBegin m state ∧ Free log state) (n + 1) k)
      (send m)
      (fun _ => Spends start r limit base (fun log state => MayBegin m state ∧ Asked m log state) n (r - 1))
      (Within start r limit base) :=
  Triple.send (stable_spendsFree m) (stable_spendsFree m) (fun _ hs _ => hs)
    (Triple.synced fun _ hs => hs.mayBegin) spends_waitNothing (spends_post hr m)

/-- Each question but the first costs one frame. -/
theorem spends_ask {α : Type} {query : Query α} (hr : 1 ≤ r) (hforget : ∀ m, query.forget ≠ .record m)
    (again : Bool) (attempts : Nat) :
    Triple (Spends start r limit base (fun log state => again = true →
        MayBegin query.request state ∧ Asked query.request log state)
        (n + attempts + if again then 0 else 3 * r - 2) (r - 1)) (ask query again attempts)
      (fun _ => Spends start r limit base (fun _ _ => True) n (r - 1)) (Within start r limit base) := by
  refine Triple.ask
    (H := fun again attempts => Spends start r limit base (fun log state => again = true →
      MayBegin query.request state ∧ Asked query.request log state)
      (n + attempts + if again then 0 else 3 * r - 2) (r - 1))
    (A := fun attempts => Spends start r limit base (fun log state =>
      MayBegin query.request state ∧ Asked query.request log state) (n + attempts) (r - 1))
    (fun _ => stable_spendsAsked _) ?_ ?_ (fun _ _ _ hs _ => hs.within) ?_ ?_ (fun _ _ hs => hs.within)
    again attempts
  · refine fun attempts => Triple.pre ((Triple.hear (stable_spends steady_true)).bind fun _ =>
      spends_send hr query.request) fun s hs => ?_
    refine hs.mono ?_ (Nat.le_refl _) fun _ _ _ => trivial
    simp only [Bool.false_eq_true,↓reduceIte]
    omega
  · refine fun attempts => Triple.pre ((Triple.hear (stable_spendsAsked _)).bind fun _ =>
      (spends_takeBack (k := r - 1)).step (stable_spendsFree _)
        (spends_sendFree (n := n + attempts) hr query.request)) fun s hs => ?_
    refine hs.mono ?_ (Nat.le_refl _) fun _ _ h => h rfl
    rw [if_pos rfl]
    omega
  · refine fun attempts _ => (spends_harmless (n := n) (k := r - 1) hforget).pre fun s hs => ?_
    exact hs.1.mono (Nat.le_add_right _ _) (Nat.le_refl _) fun _ _ _ => trivial
  · exact fun attempts s hs _ => hs.mono (by simp) (Nat.le_refl _) fun _ _ h _ => h

theorem spends_read {α : Type} {query : Query α} (hr : 1 ≤ r) (hforget : ∀ m, query.forget ≠ .record m) :
    Triple (Spends start r limit base (fun _ _ => True) (n + (4 * r - 2)) (r - 1)) (read query)
      (fun _ => Spends start r limit base (fun _ _ => True) n (r - 1)) (Within start r limit base) := by
  refine (spends_harmless hforget).bind fun _ => ?_
  refine (Triple.tries (spends_ask hr hforget false)).pre ?_
  intro s hs
  rw [hs.1]
  refine hs.mono ?_ (Nat.le_refl _) (by simp)
  simp only [Bool.false_eq_true,↓reduceIte]
  omega

/-- What the segments of a block cost: the first may need a handshake, and each of the others as much as a
message is tried. -/
def segmentsCost (r : Nat) (fresh : Bool) (segments : List Block) : Nat :=
  match segments with
  | [] => 0
  | _ :: rest => rest.length * r + if fresh then 3 * r - 1 else r

theorem spends_sendSegments (hr : 1 ≤ r) (segments : List Block) :
    Triple (Spends start r limit base (fun _ _ => True) (n + segmentsCost r true segments) (r - 1))
      (sendSegments segments) (fun _ => Spends start r limit base (fun _ _ => True) n (r - 1))
      (Within start r limit base) := by
  have hall := Triple.sendSegments (E := Within start r limit base)
    (P := fun rest s => ∃ fresh, Spends start r limit base (fun log state => fresh = false → Synced log state)
      (n + segmentsCost r fresh rest) (r - 1) s) ?_ segments
  · refine hall.mono (fun s hs => ⟨true,hs.mono (Nat.le_refl _) (Nat.le_refl _) (by simp)⟩) ?_
    rintro _ s ⟨fresh,hs⟩
    exact hs.mono (Nat.le_add_right _ _) (Nat.le_refl _) fun _ _ _ => trivial
  · refine fun segment rest => Triple.ofExists fun fresh => ?_
    have hrest : n + rest.length * r + r ≤ n + rest.length * r + (3 * r - 1) := by omega
    have hnext {s : Session} (hs : Spends start r limit base (fun log state =>
        MayBegin (.memAddBlock segment) state ∧ Asked (.memAddBlock segment) log state)
        (n + rest.length * r) (r - 1) s) :
        ∃ fresh, Spends start r limit base (fun log state => fresh = false → Synced log state)
          (n + segmentsCost r fresh rest) (r - 1) s := by
      refine ⟨false,hs.mono ?_ (Nat.le_refl _) fun _ _ h _ =>
        h.1.resolve_left (by simp [needsNoSync,Message.kind])⟩
      cases rest with
      | nil => simp [segmentsCost]
      | cons next rest =>
        simp only [segmentsCost,List.length_cons,Nat.succ_mul,Bool.false_eq_true,↓reduceIte]
        omega
    cases fresh with
    | true =>
      refine Triple.mono ((Triple.hear (stable_spends steady_true)).bind fun _ =>
        spends_send (n := n + rest.length * r) hr (.memAddBlock segment)) (fun s hs => ?_) fun _ s => hnext
      exact hs.mono (by simp [segmentsCost,Nat.add_assoc]) (Nat.le_refl _) fun _ _ _ => trivial
    | false =>
      have hsynced : Triple (Spends start r limit base Synced (n + rest.length * r + r) (r - 1))
          (send (.memAddBlock segment))
          (fun _ => Spends start r limit base (fun log state =>
            MayBegin (.memAddBlock segment) state ∧ Asked (.memAddBlock segment) log state)
            (n + rest.length * r) (r - 1)) (Within start r limit base) := by
        refine spends_rest hr (fun s hs _ => ?_) (Triple.synced fun s hs => ?_)
        · exact hs.mono (Nat.le_refl _) (Nat.le_refl _) fun _ _ h => .inr h
        · obtain ⟨-,log,-,-,hs⟩ := hs
          exact .inr hs
      refine Triple.mono ((Triple.hear (stable_spends steady_synced)).bind fun _ => hsynced) (fun s hs => ?_)
        fun _ s => hnext
      exact hs.mono (by simp [segmentsCost,Nat.add_assoc]) (Nat.le_refl _) fun _ _ h => h rfl

theorem spends_addBlock (hr : 1 ≤ r) (space : UInt8) (data : Bytes) :
    Triple (fun s => Spends start r limit base (fun _ _ => True)
        (blockLimit r (Block.segments space data s.outgoingSegmentSize)) (r - 1) s)
      (addBlock space data)
      (fun _ => Spends start r limit base (fun log state => True ∧ Free log state) 0 0)
      (Within start r limit base) := by
  refine Triple.addBlock
    (P := fun x s => Spends start r limit base (fun _ _ => True) (blockLimit r x) (r - 1) s)
    (R := fun _ => Spends start r limit base (fun _ _ => True) (0 + (r - 1)) (r - 1))
    (fun _ => stable_spends steady_true) (fun segments => ?_) (fun _ => spends_waitOutstanding steady_true)
    fun _ _ hs => hs.within
  refine (spends_sendSegments (n := 0 + (r - 1)) hr segments).pre fun s hs => hs.less ?_ (Nat.le_refl _)
  cases segments with
  | nil =>
    simp only [segmentsCost,blockLimit,List.length_nil]
    omega
  | cons segment rest =>
    simp only [segmentsCost,blockLimit,List.length_cons,Nat.add_mul,↓reduceIte]
    omega

theorem spends_drainOutput :
    Triple (Spends start r limit base (fun _ _ => True) n k) drainOutput
      (fun _ => Spends start r limit base (fun _ _ => True) n k) (Within start r limit base) :=
  Triple.drainOutput (spends_harmless (by simp))

theorem spends_nextOutput :
    Triple (Spends start r limit base (fun _ _ => True) n k) nextOutput
      (fun _ => Spends start r limit base (fun _ _ => True) n k) (Within start r limit base) :=
  Triple.nextOutput (spends_harmless (by simp)) (fun _ hs => hs) fun _ _ hs => hs.within

/-- However a call ends, it has kept within its limit. -/
theorem Spends.run {α : Type} {action : Action α} {P : Session → Prop} {s : Session}
    (h : Triple P action (fun _ => Spends start r limit base ψ n k) (Within start r limit base))
    (hs : P s) : (action.run s).2.Since base (Affords start r limit 0 0 false) :=
  h.afterwards hs (fun _ _ hr => hr.within) fun _ _ hr => hr

theorem within_call (s : Session) (hr : 1 ≤ s.retries) (call : Call) :
    (call.run s).Since s.channel.log (Affords s.state s.retries (call.limit s) 0 0 false) := by
  have hs {n : Nat} (hn : n ≤ call.limit s) : Spends s.state s.retries (call.limit s) s.channel.log
      (fun _ _ => True) n (s.retries - 1) s :=
    ⟨rfl,[],rfl,affords_start _ _ _ hn (Nat.sub_le _ _),trivial⟩
  cases call with
  | synchronize => exact Spends.run (spends_synchronize (n := 0) hr) (hs (by simp [Call.limit]))
  | waitOutstanding =>
    exact Spends.run (spends_waitOutstanding (n := 0) (k := 0) steady_true) (hs (by simp [Call.limit]))
  | send message => exact Spends.run (spends_send (n := 0) hr message) (hs (by simp [Call.limit]))
  | readThreadList =>
    exact Spends.run (spends_read (n := 0) hr (by simp [Query.threads])) (hs (by simp [Call.limit]))
  | readMemoryMap =>
    exact Spends.run (spends_read (n := 0) hr (by simp [Query.memory])) (hs (by simp [Call.limit]))
  | readAutorunList =>
    exact Spends.run (spends_read (n := 0) hr (by simp [Query.autorun])) (hs (by simp [Call.limit]))
  | sendAutorunList names => exact Spends.run (spends_send (n := 0) hr _) (hs (by simp [Call.limit]))
  | startThread name => exact Spends.run (spends_send (n := 0) hr _) (hs (by simp [Call.limit]))
  | addBlock space data => exact Spends.run (spends_addBlock hr space data) (hs (Nat.le_refl _))
  | addModule name source build =>
    change ((addModule name source build).run s).2.Since _ _
    rw [addModule]
    cases hb : build name source with
    | error e => exact (hs (Nat.zero_le _)).within
    | ok image =>
      exact Spends.run (spends_addBlock hr moduleSpace image) (hs (by simp [Call.limit,hb]))
  | drainOutput => exact Spends.run spends_drainOutput (hs (Nat.zero_le _))
  | nextOutput => exact Spends.run spends_nextOutput (hs (Nat.zero_le _))
  | terminate => exact (hs (Nat.zero_le _)).within

/-- Whatever the target does and whenever it is heard, a call sends at most so many frames and one for each
refusal of the target, and sends no message that it makes outstanding more often than it may try, answers to
refusals apart. -/
theorem exists_limit (s : Session) (hr : 1 ≤ s.retries) (call : Call) :
    ∃ log, (call.run s).channel.log = log ++ s.channel.log ∧
      sendings log ≤ refusals log + call.limit s ∧
      ∀ past, past <:+ log → tries s.state past ≤ s.retries := by
  obtain ⟨-,log,hl,h⟩ := within_call s hr call
  exact ⟨log,hl,h.sendings_le,h.tries_le⟩

/-- A target that refuses the parameters of the host, then says nothing, and takes them when they are
told anew. -/
theorem exists_limit_refused :
    let parameters : SyncParameters := ⟨false,20,4,SyncParameters.padId [109]⟩
    let target := Target.scripted [⟨[(Frame.mk 0 2 []).bytes],false⟩,.silent,
      ⟨[(Frame.mk 0 1 []).bytes ++ (Frame.mk 0 3 parameters.toBytes).bytes],false⟩]
    let s := ofLink (.ofTarget target) 2
    let log := (Call.synchronize.run s).channel.log
    1 ≤ s.retries ∧ sendings log = 3 ∧ refusals log = 1 ∧ sendings log ≤ refusals log + 3 ∧
      ∀ past, past <:+ log → tries s.state past ≤ 2 := by
  intro parameters target s log
  have hr : 1 ≤ s.retries := by decide
  obtain ⟨log',hl,hsendings,htries⟩ := exists_limit s hr .synchronize
  have hbase : s.channel.log = [] := rfl
  rw [hbase,List.append_nil] at hl
  subst hl
  exact ⟨hr,by decide +kernel,by decide +kernel,hsendings,htries⟩

end Session

end RemotePyMite
