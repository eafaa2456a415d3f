import RemotePyMite.Channel.Basic

/-! # Recorders

Receivers that only keep what they get.  A channel may have several; each gets every
message from its registration on, and the notice of a failure.
-/
namespace RemotePyMite

/-- What a recorder keeps. -/
inductive Notice where
  | message (message : Message)
  | broken (reason : String)
  deriving DecidableEq

/-- What each of the recorders kept, the latest first, in the order of registration. -/
abbrev Recorders := List (List Notice)

namespace Recorders

def keep (recorders : Recorders) (notice : Notice) : Recorders :=
  recorders.map (notice :: ·)

def register (recorders : Recorders) : Recorders :=
  recorders ++ [[]]

def receiver : Receiver Recorders Unit where
  receive recorders message := ⟨recorders.keep (.message message), none, none⟩
  broken recorders reason := recorders.keep (.broken reason)
  change recorders _ := recorders.register

end Recorders

/-- A receiver with recorders beside it; each gets what the receiver gets. -/
def Receiver.withRecorders {σ ν : Type} (r : Receiver σ ν) :
    Receiver (σ × Recorders) (ν ⊕ Unit) where
  receive x message :=
    let reception := r.receive x.1 message
    ⟨(reception.state, x.2.keep (.message message)), reception.segmentSize, reception.reply⟩
  broken x reason := (r.broken x.1 reason, x.2.keep (.broken reason))
  change
    | x, .inl change => (r.change x.1 change, x.2)
    | x, .inr () => (x.1, x.2.register)

end RemotePyMite
