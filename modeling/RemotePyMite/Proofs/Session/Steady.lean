import RemotePyMite.Proofs.Channel.Invariant
import RemotePyMite.Proofs.Session.History
import RemotePyMite.Session.Calls

/-! # What no message of the target undoes

Between its steps a call relies on things that messages of the target do not undo: that its message may be
sent, that nothing is outstanding, or that what is outstanding is what it has asked itself.
-/
namespace RemotePyMite.Session
open SessionState

/-- What no message of the target and no further event undoes. -/
structure Steady (ψ : History → SessionState → Prop) : Prop where
  receive : ∀ {log state} m, ψ log state → ψ log (SessionState.receive state m).state
  grow : ∀ {log state} event, ψ log state → ψ (event :: log) state

/-- A message may be sent for the first time. -/
def MayBegin (m : Message) (state : SessionState) : Prop :=
  needsNoSync m.kind = true ∨ state.syncedOutgoing = true

/-- The host has been heard since the handshake began. -/
def Synced (_ : History) (state : SessionState) : Prop :=
  state.syncedOutgoing = true

def Free (_ : History) (state : SessionState) : Prop :=
  state.outstanding = none

/-- Nothing is outstanding but what was recorded here. -/
def Asked (m : Message) (log : History) (state : SessionState) : Prop :=
  state.outstanding = none ∨ state.outstanding = some m ∧ .changed (.record m) ∈ log

variable {ψ φ : History → SessionState → Prop} {m : Message} {log : History} {state : SessionState}

theorem steady_true : Steady fun _ _ => True :=
  ⟨fun _ _ => trivial,fun _ _ => trivial⟩

theorem Steady.and (h : Steady ψ) (h' : Steady φ) :
    Steady fun log state => ψ log state ∧ φ log state :=
  ⟨fun m hs => ⟨h.receive m hs.1,h'.receive m hs.2⟩,fun e hs => ⟨h.grow e hs.1,h'.grow e hs.2⟩⟩

theorem Steady.keeps (h : Steady ψ) : receiver.Keeps ψ where
  received := fun m hs => h.grow _ (h.receive m hs)
  replied := fun m _ _ _ _ hs _ _ _ => h.grow _ (h.grow _ (h.receive m hs))
  broke := fun _ hs => h.grow _ hs

theorem steady_free : Steady Free :=
  ⟨fun m hs => outstanding_receive_of_none m hs,fun _ hs => hs⟩

theorem steady_asked (m : Message) : Steady (Asked m) where
  receive := by
    intro log state k h
    rcases state.outstanding_receive k with hr | hr
    · exact .inl hr
    · exact h.imp hr.trans fun h => ⟨hr.trans h.1,h.2⟩
  grow := fun event h => h.imp_right fun h => ⟨h.1,List.mem_cons_of_mem _ h.2⟩

theorem syncedOutgoing_receive (k : Message) (h : state.syncedOutgoing = true) :
    (state.receive k).state.syncedOutgoing = true := by
  rcases handshake_cases k with ⟨p,rfl⟩ | rfl | ⟨hs,ha⟩
  · exact h
  · simp [SessionState.receive,onAck,h]
  · exact (state.handshake_receive hs ha).2.1.trans h

theorem steady_synced : Steady Synced :=
  ⟨fun k h => syncedOutgoing_receive k h,fun _ h => h⟩

theorem steady_mayBegin (m : Message) : Steady fun _ => MayBegin m :=
  ⟨fun k h => h.imp_right (syncedOutgoing_receive k),fun _ h => h⟩

theorem syncedOutgoing_giveUp (state : SessionState) (kind : Kind) :
    (state.change (.giveUp kind)).syncedOutgoing = state.syncedOutgoing :=
  (state.handshake_dropOutstanding kind).2.1

theorem outstanding_change (state : SessionState) {change : SessionChange}
    (h : ∀ m, change ≠ .record m) : (state.change change).outstanding = none ∨
      (state.change change).outstanding = state.outstanding := by
  cases change with
  | record m => exact absurd rfl (h m)
  | giveUp kind => exact state.outstanding_dropOutstanding kind
  | _ => exact .inr rfl

theorem outstanding_giveUp (h : state.outstanding = some m) :
    (state.change (.giveUp m.kind)).outstanding = none := by
  refine congrArg SessionState.outstanding (if_pos ?_)
  rw [outstandingKind,h,Option.map_some]

/-- What has just been asked can be taken back, so that nothing is outstanding. -/
theorem free_of_asked (h : Asked m log state) : (state.change (.giveUp m.kind)).outstanding = none := by
  rcases h with hnone | ⟨hsome,-⟩
  · rcases state.outstanding_dropOutstanding m.kind with hd | hd
    · exact hd
    · exact hd.trans hnone
  · exact outstanding_giveUp hsome

end RemotePyMite.Session
