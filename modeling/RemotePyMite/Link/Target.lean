import RemotePyMite.Frame.Writer

/-! # Targets and the link to one

A target is known by what it does: to each frame that reaches it, it may write chunks of
bytes and then close its side, and what it does may depend on all frames before.  It
answers finitely often; a run that ends sees no more than that.  A link keeps what the
target received and what has not reached the host yet, and the stream that the host writes to.
-/
namespace RemotePyMite

/-- What a target does about one frame: it writes the chunks, and may then close its
side. -/
structure Reaction where
  chunks : List Bytes
  closes : Bool
  deriving DecidableEq, Repr

namespace Reaction

def silent : Reaction := ⟨[], false⟩

def isSilent (r : Reaction) : Bool :=
  r.chunks.isEmpty && !r.closes

end Reaction

/-- A target: what it does about a frame after those that reached it before, the latest
first, and how often it does anything. -/
structure Target where
  react : List Frame → Frame → Reaction
  answers : Nat

namespace Target

/-- The type byte of an acknowledgment. -/
def ackId : UInt8 := 1

def mute : Target := ⟨fun _ _ => .silent, 0⟩

/-- A target that takes its reactions from a list, one for each frame that is not an
acknowledgment, and says nothing about acknowledgments. -/
def scripted (reactions : List Reaction) : Target where
  react earlier frame :=
    if frame.kind = ackId then .silent
    else reactions.getD (earlier.countP (·.kind ≠ ackId)) .silent
  answers := reactions.length

/-- A target that sends every frame back, up to so many times. -/
def echo (answers : Nat) : Target where
  react _ frame := ⟨[frame.bytes], false⟩
  answers

end Target

/-- Something on its way to the host. -/
inductive Arrival where
  | chunk (bytes : Bytes)
  | closed
  /-- Nothing comes, and a read gives this error. -/
  | failing (error : IoError)
  deriving DecidableEq, Repr

/-- A link to a target. -/
structure Link where
  target : Target
  received : List Frame
  answersLeft : Nat
  /-- What is on its way to the host, the earliest first. -/
  inbox : List Arrival
  closing : Bool
  /-- What the host writes to. -/
  output : Stream

namespace Link

/-- A link on which all writing works. -/
def ofTarget (target : Target) : Link :=
  ⟨target, [], target.answers, [], false, .ofAnswers [] []⟩

/-- The link with another target at its end, which has received nothing. -/
def retarget (l : Link) (target : Target) : Link :=
  { l with target, received := [], answersLeft := target.answers }

def put (l : Link) (r : Reaction) : Link :=
  if l.closing then l
  else
    { l with
      inbox := l.inbox ++ r.chunks.map .chunk ++ if r.closes then [.closed] else []
      closing := r.closes }

/-- A frame reaches the target, which reacts. -/
def deliver (l : Link) (frame : Frame) : Link :=
  let r := l.target.react l.received frame
  let l := { l with received := frame :: l.received }
  if r.isSilent then l
  else if l.answersLeft = 0 then l
  else { l with answersLeft := l.answersLeft - 1 }.put r

/-- `l'` came out of `l` by deliveries: either the target has answered, or nothing was
put on its way. -/
def Follows (l l' : Link) : Prop :=
  l'.answersLeft < l.answersLeft ∨ (l'.answersLeft = l.answersLeft ∧ l'.inbox = l.inbox)

theorem Follows.refl (l : Link) : l.Follows l :=
  .inr ⟨rfl, rfl⟩

theorem Follows.trans {a b c : Link} (h : a.Follows b) (h' : b.Follows c) : a.Follows c := by
  unfold Follows at *
  grind

@[simp] theorem answersLeft_put (l : Link) (r : Reaction) :
    (l.put r).answersLeft = l.answersLeft := by
  unfold put
  split <;> rfl

theorem follows_deliver (l : Link) (frame : Frame) : l.Follows (l.deliver frame) := by
  unfold deliver
  dsimp only
  split
  · exact .inr ⟨rfl, rfl⟩
  · split
    · exact .inr ⟨rfl, rfl⟩
    · left
      simp only [answersLeft_put]
      omega

end Link

end RemotePyMite
