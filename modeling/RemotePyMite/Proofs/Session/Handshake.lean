import RemotePyMite.Proofs.Session.Guard
import RemotePyMite.Proofs.Session.Turn

/-! # The handshake tells the truth

At every moment of a run the two halves of the handshake stand for what the target has said since a call
began a handshake last (`starts`), and the writing of no message but acknowledgments and the parameters of
the host begins for the first time before the second half is done.  In its history a handshake shows as a
change of the state; that there is one exactly where a call begins a handshake is a part of `Chronicle`.
-/
namespace RemotePyMite.Session
open SessionState RemotePyMite.Action

/-- The session in which a call begins a handshake. -/
def Call.handshake? (s : Session) : Call → Option Session
  | .synchronize => some s
  | .send message => sendHandshake? message s
  | .readThreadList => readHandshake? .threads s
  | .readMemoryMap => readHandshake? .memory s
  | .readAutorunList => readHandshake? .autorun s
  | .sendAutorunList names => sendHandshake? (.autorunList (.ofNames names)) s
  | .startThread name => sendHandshake? (.threadStart (.ofName name)) s
  | .addBlock space data => blockHandshake? space data s
  | .addModule name source build =>
    (build name source).toOption.bind fun image => blockHandshake? moduleSpace image s
  | .waitOutstanding | .drainOutput | .nextOutput | .terminate => none

def Turn.handshake? (s : Session) : Turn → Option Session
  | .call c => c.handshake? s
  | .write _ | .close => none

/-- How much had happened each time when a handshake began in these turns. -/
def starts (s : Session) : List Turn → List Nat
  | [] => []
  | turn :: rest =>
    ((turn.handshake? s).map fun now => now.channel.log.length).toList ++ starts (turn.run s) rest

/-- Some event since the latest of these moments satisfies `Q`, given what happened before it. -/
def SinceLast (moments : List Nat) (Q : Event SessionChange → History → Prop) (log : History) : Prop :=
  ∃ event earlier, event :: earlier <:+ log ∧ Q event earlier ∧
    ∀ n ∈ moments, n < log.length → n ≤ earlier.length

/-- A history in which handshakes began at these moments and at no others, and all was gated. -/
structure Chronicle (moments : List Nat) (log : History) : Prop where
  begins : ∀ n, n ∈ moments ↔
    ∃ earlier, .changed .beginHandshake :: earlier <:+ log ∧ earlier.length = n
  gated : ∀ event earlier, event :: earlier <:+ log → Gated event earlier

variable {moments : List Nat} {base log past : History} {ψ : History → SessionState → Prop}
  {Q : Event SessionChange → History → Prop} {s t : Session}

theorem chronicle_nil : Chronicle [] [] :=
  ⟨by simp,by simp⟩

theorem Chronicle.begin (h : Chronicle moments log) :
    Chronicle (moments ++ [log.length]) (.changed .beginHandshake :: log) := by
  constructor
  · intro n
    simp only [List.suffix_cons_iff,List.cons.injEq,true_and,or_and_right,exists_or,exists_eq_left,
      ← h.begins,List.mem_append,List.mem_singleton,eq_comm (a := n),or_comm]
  · intro event earlier hs
    rcases List.suffix_cons_iff.mp hs with heq | hs
    · cases heq
      exact gated_of_frame? rfl
    · exact h.gated event earlier hs

/-- A latest event is one of the later ones, or one of the earlier ones. -/
theorem suffix_append_cases {event : Event SessionChange} (h : event :: past <:+ log ++ base) :
    event :: past <:+ base ∨ ∃ mid, past = mid ++ base ∧ event :: mid <:+ log := by
  induction log with
  | nil => exact .inl h
  | cons first rest ih =>
    rcases List.suffix_cons_iff.mp h with heq | h
    · cases heq
      exact .inr ⟨rest,rfl,List.suffix_rfl⟩
    · refine (ih h).imp_right ?_
      rintro ⟨mid,rfl,hm⟩
      exact ⟨mid,rfl,hm.trans (List.suffix_cons _ _)⟩

theorem Chronicle.guarded (h : Chronicle moments base) (hs : Guarded base ψ s) :
    Chronicle moments s.channel.log := by
  obtain ⟨-,log,hl,hs,-⟩ := hs
  rw [hl]
  constructor
  · intro n
    rw [h.begins]
    constructor
    · rintro ⟨earlier,hp,hn⟩
      exact ⟨earlier,hp.trans (List.suffix_append _ _),hn⟩
    · rintro ⟨earlier,hp,hn⟩
      rcases suffix_append_cases hp with hp | ⟨mid,-,hp⟩
      · exact ⟨earlier,hp,hn⟩
      · exact absurd (hp.subset List.mem_cons_self) hs.begun
  · intro event earlier hp
    rcases suffix_append_cases hp with hp | ⟨mid,rfl,hmid⟩
    · exact h.gated event earlier hp
    · exact hs.gated event mid hmid

/-- What has happened since the handshake began last has happened since the latest start of one. -/
theorem Chronicle.lately_iff (h : Chronicle moments log) (hp : past <:+ log) :
    Lately Q past ↔ SinceLast moments Q past := by
  constructor
  · rintro ⟨later,event,earlier,rfl,hQ,hnew⟩
    refine ⟨event,earlier,List.suffix_append _ _,hQ,fun n hn hlt => ?_⟩
    obtain ⟨older,hs,rfl⟩ := (h.begins n).mp hn
    by_contra hle
    -- A handshake that began after the event would be one of the later events.
    obtain ⟨front,hfront⟩ := List.suffix_of_suffix_length_le hs hp (Nat.succ_le_of_lt hlt)
    obtain ⟨mid,rfl⟩ := List.suffix_of_suffix_length_le ((List.suffix_append later _).trans hp)
      ((List.suffix_cons _ _).trans hs) (Nat.lt_of_not_le hle)
    rw [← List.cons_append,← List.append_assoc] at hfront
    exact hnew (List.append_cancel_right hfront ▸ by simp)
  · rintro ⟨event,earlier,⟨later,rfl⟩,hQ,hlast⟩
    refine ⟨later,event,earlier,rfl,hQ,fun hmem => ?_⟩
    obtain ⟨front,mid,rfl⟩ := List.append_of_mem hmem
    have hs : .changed .beginHandshake :: (mid ++ event :: earlier) <:+ log :=
      List.IsSuffix.trans ⟨front,by simp⟩ hp
    have hle := hlast _ ((h.begins _).mpr ⟨_,hs,rfl⟩) (by simp; omega)
    simp at hle
    omega

theorem Guarded.settle (h : Guarded base (fun _ _ => True) s) :
    Guarded base (fun _ _ => True) { s with channel := s.channel.settle receiver } :=
  Session.Meets.settle h steady_true.guards

/-- However a call ends, all was guarded. -/
theorem Guarded.run {α : Type} {action : Action α} {ψ : α → History → SessionState → Prop}
    {P : Session → Prop} (h : Action.Triple P action (fun x => Guarded base (ψ x)) (FailsGuarded base))
    (hs : P s) : Guarded base (fun _ _ => True) (action.run s).2 :=
  h.afterwards hs (fun _ _ hr => hr.mono fun _ _ _ => trivial) fun _ _ hr => hr

theorem guarded_call (h : Guarded base (fun _ _ => True) s) (call : Call) :
    Guarded (origin base (call.handshake? s)) (fun _ _ => True) (call.run s) := by
  cases call with
  | synchronize => exact Guarded.run (guarded_synchronize h) rfl
  | waitOutstanding => exact Guarded.run (guarded_waitOutstanding steady_true) h
  | send message => exact Guarded.run (guarded_sendFrom h message) rfl
  | readThreadList => exact Guarded.run (guarded_read h nofun nofun) rfl
  | readMemoryMap => exact Guarded.run (guarded_read h nofun nofun) rfl
  | readAutorunList => exact Guarded.run (guarded_read h nofun nofun) rfl
  | sendAutorunList names => exact Guarded.run (guarded_sendFrom h (.autorunList (.ofNames names))) rfl
  | startThread name => exact Guarded.run (guarded_sendFrom h (.threadStart (.ofName name))) rfl
  | addBlock space data => exact Guarded.run (guarded_addBlock h space data) rfl
  | addModule name source build =>
    change Guarded _ _ ((addModule name source build).run s).2
    rw [Call.handshake?,addModule]
    cases build name source with
    | error e => exact h
    | ok image => exact Guarded.run (guarded_addBlock h moduleSpace image) rfl
  | drainOutput =>
    refine Guarded.run (ψ := fun _ _ _ => True) (Triple.drainOutput ?_) h
    exact guarded_update nofun nofun fun _ _ _ => trivial
  | nextOutput =>
    refine Guarded.run (ψ := fun _ _ _ => True)
      (Triple.nextOutput ?_ (fun _ hs => hs) fun _ _ hs => hs.fails _) h
    exact guarded_update nofun nofun fun _ _ _ => trivial
  | terminate =>
    obtain ⟨-,log,hl,h,-⟩ := h
    exact ⟨trivial,log,hl,h.lost,trivial⟩

theorem guarded_turn (h : Guarded base (fun _ _ => True) s) (turn : Turn) :
    Guarded (origin base (turn.handshake? s)) (fun _ _ => True) (turn.run s) := by
  cases turn with
  | call c => exact guarded_call h c
  | write chunks =>
    let written := { s.channel with link := s.channel.link.put ⟨chunks,false⟩ }
    exact Guarded.settle (s := { s with channel := written }) h
  | close =>
    change Guarded base _ { s with channel := s.channel.closeTarget receiver }
    unfold Channel.closeTarget
    split
    · let closed := { s.channel with link := s.channel.link.put ⟨[],true⟩ }
      exact Guarded.settle (s := { s with channel := closed }) h
    · exact h

theorem guarded_of_sendHandshake? {m : Message} (h : Guarded base (fun _ _ => True) s)
    (ht : sendHandshake? m s = some t) : Guarded base (fun _ _ => True) t := by
  unfold sendHandshake? at ht
  split at ht
  · cases ht
  · cases ht
    exact h.hear

theorem guarded_of_blockHandshake? {space : UInt8} {data : Bytes} (h : Guarded base (fun _ _ => True) s)
    (ht : blockHandshake? space data s = some t) : Guarded base (fun _ _ => True) t := by
  obtain ⟨segment,-,ht⟩ := Option.bind_eq_some_iff.mp ht
  exact guarded_of_sendHandshake? h.hear ht

theorem guarded_of_readHandshake? {α : Type} {query : Query α} (h : Guarded base (fun _ _ => True) s)
    (hr : ∀ other, query.forget ≠ .record other) (hb : query.forget ≠ .beginHandshake)
    (ht : readHandshake? query s = some t) : Guarded base (fun _ _ => True) t := by
  have hforget : Triple (Guarded base fun _ _ => True) (update query.forget)
      (fun _ => Guarded base fun _ _ => True) (FailsGuarded base) :=
    guarded_update hr hb fun _ _ _ => trivial
  unfold readHandshake? at ht
  split at ht
  · cases ht
  · exact guarded_of_sendHandshake? (Guarded.hear (hforget s h)) ht

/-- Up to the beginning of its handshake a turn is guarded as before. -/
theorem guarded_of_handshake? (h : Guarded base (fun _ _ => True) s) {turn : Turn}
    (ht : turn.handshake? s = some t) : Guarded base (fun _ _ => True) t := by
  cases turn with
  | write chunks => cases ht
  | close => cases ht
  | call c =>
    cases c with
    | synchronize =>
      cases ht
      exact h
    | send | sendAutorunList | startThread => exact guarded_of_sendHandshake? h ht
    | readThreadList | readMemoryMap | readAutorunList =>
      exact guarded_of_readHandshake? h (by nofun) (by nofun) ht
    | addBlock space data => exact guarded_of_blockHandshake? h ht
    | addModule name source build =>
      obtain ⟨image,-,ht⟩ := Option.bind_eq_some_iff.mp ht
      exact guarded_of_blockHandshake? h ht
    | waitOutstanding | drainOutput | nextOutput | terminate => cases ht

/-- What is known of a session between two turns. -/
def Chronicled (moments : List Nat) (s : Session) : Prop :=
  Chronicle moments s.channel.log ∧ Guarded s.channel.log (fun _ _ => True) s

theorem Chronicled.turn (h : Chronicled moments s) (turn : Turn) :
    Chronicled (moments ++ ((turn.handshake? s).map fun now => now.channel.log.length).toList)
      (turn.run s) := by
  have hturn := guarded_turn h.2 turn
  refine ⟨?_,hturn.anew⟩
  -- A turn with a handshake is guarded up to it, and then from it on.
  cases hb : turn.handshake? s with
  | none =>
    rw [hb] at hturn
    rw [Option.map_none,Option.toList_none,List.append_nil]
    exact h.1.guarded hturn
  | some now =>
    rw [hb] at hturn
    exact (h.1.guarded (guarded_of_handshake? h.2 hb)).begin.guarded hturn

theorem Chronicled.play (h : Chronicled moments s) (turns : List Turn) :
    Chronicled (moments ++ starts s turns) (s.play turns) := by
  induction turns generalizing moments s with
  | nil =>
    rw [starts,List.append_nil]
    exact h
  | cons turn rest ih =>
    rw [starts,← List.append_assoc]
    exact ih (h.turn turn)

theorem chronicled_ofLink (link : Link) (retries : Nat) (meanwhile : List (List Arrival)) :
    Chronicled [] { ofLink link retries with meanwhile } :=
  ⟨chronicle_nil,trivial,[],rfl,⟨rfl,List.not_mem_nil,by simp,nofun⟩,trivial⟩

/-- In every run, whatever comes in and whenever, at every moment: the target has told its parameters since a
call began a handshake last exactly if the first half of it counts as done, it has acknowledged the host's
exactly if the second does, and the handshake is over exactly if both are.  The parameters are those it told
last.  Before the second half is done, the writing of no message that needs it begins for the first time. -/
theorem handshake_play (link : Link) (retries : Nat) (meanwhile : List (List Arrival))
    (turns : List Turn) :
    let opened : Session := { ofLink link retries with meanwhile }
    let s := opened.play turns
    s.state = after s.channel.log ∧
    (∀ past, past <:+ s.channel.log →
      ((after past).syncedIncoming = true ↔ SinceLast (starts opened turns) IsSync past) ∧
      ((after past).syncedOutgoing = true ↔ SinceLast (starts opened turns) IsSyncAck past) ∧
      ((after past).progress = .synchronized ↔
        (after past).syncedIncoming = true ∧ (after past).syncedOutgoing = true) ∧
      (after past).parameters = past.findSome? told?) ∧
    ∀ event earlier, event :: earlier <:+ s.channel.log → Gated event earlier := by
  intro opened s
  obtain ⟨hc,-,log,hl,hs,-⟩ := (chronicled_ofLink link retries meanwhile).play turns
  refine ⟨?_,fun past hp => ?_,hc.gated⟩
  · exact hs.state_eq.trans (congrArg after hl.symm)
  · obtain ⟨hincoming,houtgoing⟩ := handshake_after past
    exact ⟨hincoming.trans (hc.lately_iff hp),houtgoing.trans (hc.lately_iff hp),
      progress_eq_synchronized_iff _,parameters_after past⟩

/-- The writing of the name of a thread breaks off, and the message stays outstanding.  The next handshake
sends it again before it tells the parameters of the host: this is the first time that it is sent whole. -/
theorem handshake_play_unwritten :
    let ack := (Frame.mk 0 1 []).bytes
    let parameters : SyncParameters := ⟨false,20,4,SyncParameters.padId [109]⟩
    let target := Target.scripted
      [⟨[ack ++ (Frame.mk 0 3 parameters.toBytes).bytes],false⟩,⟨[ack],false⟩]
    let link := { Link.ofTarget target with output := .ofAnswers [.takes 255,.fails .timedOut] [] }
    let s := (ofLink link 2).play
      [.call .synchronize,.call (.startThread "m"),.call .synchronize]
    let frame : Frame := ⟨2,10,[109]⟩
    ∃ later earlier, s.channel.log = later ++ .sent frame :: earlier ∧
      Kind.ofWire? frame.kind = some .threadStart ∧ (after earlier).syncedOutgoing = false ∧
      Channel.sent earlier = [⟨1,3,(SyncParameters.host true).toBytes⟩] := by
  intro ack parameters target link s frame
  refine ⟨s.channel.log.take 6,s.channel.log.drop 7,?_⟩
  decide +kernel

end RemotePyMite.Session
