import RemotePyMite.Proofs.Session.Announcement
import RemotePyMite.Proofs.Session.Triple

/-! # What a handshake comes to

An attempt at the handshake takes the parameters of the host back, waits for what has been outstanding
from the start and announces the parameters.  Each step keeps what `Tells` says, and so does all that comes
in between; the way the call ends says what has been announced and what has come in (`synchronize_tells`).
-/
namespace RemotePyMite.Session
open SessionState RemotePyMite.Action

variable {start state : SessionState} {r k : Nat} {base log : History} {connected : Bool}

/-- The host has announced its parameters `k` times, and no answer of it is missing. -/
def Speaks (start : SessionState) (k : Nat) (connected : Bool) (log : History) (state : SessionState) :
    Prop :=
  Prompt start connected log state ∧ Tells start k log state

/-- Only what has been outstanding from the start has to be waited for. -/
def Slot (start : SessionState) (log : History) (state : SessionState) : Prop :=
  ∀ m, state.outstanding = some m → m.kind = .sync ∨ start.outstanding = some m ∧ Unrecorded log

/-- The parameters have been announced. -/
def Announced (start : SessionState) (k : Nat) (connected : Bool) (log : History) (state : SessionState) :
    Prop :=
  Speaks start k connected log state ∧ Slot start log state

theorem Speaks.frame {frame : Frame} {event : Event SessionChange} {j : Nat}
    (h : Speaks start k connected log state) (ht : event.Tries frame)
    (htells : Tells start j (event :: log) state) : Speaks start j connected (event :: log) state :=
  ⟨h.1.frame ht,htells⟩

theorem Announced.done (h : Announced start k connected log state) (hk : 0 < k)
    (hd : state.isSynchronized = true) :
    Heard log ∧ Acknowledged start log ∧ state.progress = .synchronized ∧
      (state.outstanding = none ∨ ∃ p, state.outstanding = some (.sync p)) := by
  obtain ⟨⟨-,ht⟩,hslot⟩ := h
  rw [isSynchronized,Bool.and_eq_true] at hd
  refine ⟨ht.incoming.mp hd.1,ht.outgoing.mp hd.2,(progress_eq_synchronized_iff state).mpr hd,?_⟩
  cases ho : state.outstanding with
  | none => exact .inl rfl
  | some m =>
    rcases hslot m ho with hs | ⟨-,hnew⟩
    · rw [← ho]
      exact .inr (outstandingKind_eq_sync_iff.mp (by rw [outstandingKind,ho,Option.map_some,hs]))
    · exact absurd hnew (ht.recorded (Nat.ne_of_gt hk))

end RemotePyMite.Session
