import RemotePyMite.Proofs.Session.OnCourse

/-! # Runs of a session

A session runs in turns: the host makes a call, or the target writes of its own accord or closes its
side.  Where nothing is taken in between the steps of the calls every turn keeps a course (`Sound.turn`),
so what courses have in common holds of every such run.
-/
namespace RemotePyMite.Session
open SessionState RemotePyMite.Action

/-- The calls that a host can make. -/
inductive Call where
  | synchronize
  | waitOutstanding
  | send (message : Message)
  | readThreadList
  | readMemoryMap
  | readAutorunList
  | sendAutorunList (names : List String)
  | startThread (name : String)
  | addBlock (space : UInt8) (data : Bytes)
  | addModule (name : String) (source : Bytes) (build : ImageBuilder)
  | drainOutput
  | nextOutput
  | terminate

namespace Call

/-- The session after a call, whether it succeeds or fails. -/
def run (s : Session) : Call → Session
  | .synchronize => (Session.synchronize.run s).2
  | .waitOutstanding => (Session.waitOutstanding.run s).2
  | .send message => ((Session.send message).run s).2
  | .readThreadList => (Session.readThreadList.run s).2
  | .readMemoryMap => (Session.readMemoryMap.run s).2
  | .readAutorunList => (Session.readAutorunList.run s).2
  | .sendAutorunList names => ((Session.sendAutorunList names).run s).2
  | .startThread name => ((Session.startThread name).run s).2
  | .addBlock space data => ((Session.addBlock space data).run s).2
  | .addModule name source build => ((Session.addModule name source build).run s).2
  | .drainOutput => (Session.drainOutput.run s).2
  | .nextOutput => (Session.nextOutput.run s).2
  | .terminate => (Session.terminate.run s).2

/-- The messages that a call sends for the first time, the parameters of the host apart. -/
def Sends (m : Message) : Call → Prop
  | .send message => m = message
  | .readThreadList => m = .threadList .request
  | .readMemoryMap => m = .memList .request
  | .readAutorunList => m = .autorunList .request
  | .sendAutorunList names => m = .autorunList (.ofNames names)
  | .startThread name => m = .threadStart (.ofName name)
  | .addBlock _ _ | .addModule _ _ _ => ∃ block, m = .memAddBlock block
  | .synchronize | .waitOutstanding | .drainOutput | .nextOutput | .terminate => False

/-- The message with which a call asks until it is answered. -/
def request? : Call → Option Message
  | .readThreadList => some (.threadList .request)
  | .readMemoryMap => some (.memList .request)
  | .readAutorunList => some (.autorunList .request)
  | _ => none

end Call

/-- What can happen next. -/
inductive Turn where
  | call (call : Call)
  /-- The target writes chunks of its own accord. -/
  | write (chunks : List Bytes)
  | close

namespace Turn

def run (s : Session) : Turn → Session
  | .call c => c.run s
  | .write chunks => { s with channel := s.channel.inject SessionState.receiver chunks }
  | .close => { s with channel := s.channel.closeTarget SessionState.receiver }

def Sends (m : Message) : Turn → Prop
  | .call c => (∃ reset, m = .sync (.host reset)) ∨ c.Sends m
  | .write _ | .close => False

def request? : Turn → Option Message
  | .call c => c.request?
  | .write _ | .close => none

end Turn

/-- A session after these turns. -/
def play (s : Session) (turns : List Turn) : Session :=
  turns.foldl Turn.run s

/-- What is known of a session between two turns. -/
structure Sound (s : Session) : Prop where
  quiet : s.meanwhile = []
  state_eq : s.state = after s.channel.log
  tracked : ∀ m, .changed (.record m) ∈ s.channel.log → isTracked m.kind = true

theorem sound_ofLink (link : Link) (retries : Nat) : Sound (ofLink link retries) := by
  refine ⟨rfl,rfl,?_⟩
  rintro m ⟨⟩

variable {own : Message → Prop} {request : Option Message} {base : History} {s : Session}

theorem Sound.runs (h : Sound s) : Runs own request s.channel.log (fun _ _ => True) s :=
  ⟨h.quiet,[],rfl,⟨.start,h.state_eq⟩,trivial⟩

/-- However a call ends, it has kept its course. -/
theorem Runs.run {α : Type} {action : Action α} {ψ : α → History → SessionState → Prop}
    (h : Action.Triple (Runs own request base fun _ _ => True) action
      (fun x => Runs own request base (ψ x)) (Fails own request base))
    (hs : Runs own request base (fun _ _ => True) s) :
    Runs own request base (fun _ _ => True) (action.run s).2 :=
  h.afterwards hs (fun _ _ hr => hr.mono fun _ _ _ => trivial) fun _ _ hr => hr

theorem runs_call (call : Call) (hsync : ∀ reset, own (.sync (.host reset)))
    (hown : ∀ m, call.Sends m → own m) (hs : Runs own call.request? base (fun _ _ => True) s) :
    Runs own call.request? base (fun _ _ => True) (call.run s) := by
  cases call with
  | synchronize => exact Runs.run (runs_synchronize hsync) hs
  | waitOutstanding => exact Runs.run (runs_waitOutstanding steady_true) hs
  | send message => exact Runs.run (runs_send hsync (hown _ rfl)) hs
  | readThreadList => exact Runs.run (runs_read hsync (hown _ rfl) rfl fun _ => trivial) hs
  | readMemoryMap => exact Runs.run (runs_read hsync (hown _ rfl) rfl fun _ => trivial) hs
  | readAutorunList => exact Runs.run (runs_read hsync (hown _ rfl) rfl fun _ => trivial) hs
  | sendAutorunList names => exact Runs.run (runs_send hsync (hown _ rfl)) hs
  | startThread name => exact Runs.run (runs_send hsync (hown _ rfl)) hs
  | addBlock space data =>
    exact Runs.run (runs_addBlock hsync (fun block => hown _ ⟨block,rfl⟩) space data) hs
  | addModule name source build =>
    refine Runs.run (ψ := fun _ _ _ => True) ?_ hs
    unfold addModule
    cases build name source with
    | error e => exact Triple.throw fun _ hs => hs
    | ok image => exact runs_addBlock hsync (fun block => hown _ ⟨block,rfl⟩) moduleSpace image
  | drainOutput =>
    refine Runs.run (ψ := fun _ _ _ => True) (Triple.drainOutput ?_) hs
    exact runs_update (fun _ _ _ => trivial) fun _ _ _ => trivial
  | nextOutput =>
    refine Runs.run (ψ := fun _ _ _ => True) (Triple.nextOutput ?_ (fun _ hs => hs) fun _ _ hs => hs) hs
    exact runs_update (fun _ _ _ => trivial) fun _ _ _ => trivial
  | terminate => exact hs

/-- Every turn keeps its course. -/
theorem Sound.turn (h : Sound s) (turn : Turn) :
    Runs (turn.Sends ·) turn.request? s.channel.log (fun _ _ => True) (turn.run s) := by
  cases turn with
  | call c => exact runs_call c (fun reset => .inl ⟨reset,rfl⟩) (fun _ hm => .inr hm) h.runs
  | write chunks =>
    let written := { s.channel with link := s.channel.link.put ⟨chunks,false⟩ }
    exact Runs.settle (s := { s with channel := written }) h.runs steady_true
  | close =>
    change Runs _ _ _ _ { s with channel := s.channel.closeTarget SessionState.receiver }
    unfold Channel.closeTarget
    split
    · let closed := { s.channel with link := s.channel.link.put ⟨[],true⟩ }
      exact Runs.settle (s := { s with channel := closed }) h.runs steady_true
    · exact h.runs

theorem Sound.next (h : Sound s) (turn : Turn) : Sound (turn.run s) := by
  obtain ⟨hq,log,hl,hc,-⟩ := h.turn turn
  refine ⟨hq,?_,?_⟩
  · rw [hl]
    exact hc.state_eq
  · intro m hm
    rw [hl,List.mem_append] at hm
    rcases hm with hm | hm
    · exact (hc.course.begun_of_mem hm).2
    · exact h.tracked m hm

theorem Sound.play (h : Sound s) (turns : List Turn) : Sound (s.play turns) := by
  unfold Session.play
  induction turns generalizing s with
  | nil => exact h
  | cons turn rest ih => exact ih (h.next turn)

end RemotePyMite.Session
