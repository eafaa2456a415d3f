import Mathlib.Data.List.Induction
import RemotePyMite.Channel.Recorder
import RemotePyMite.Proofs.Channel.Invariant

/-! # The life of a channel

Whatever host, target and link do to a channel, and in whatever order, it is opened once and is
over for good when the host quits or the link fails.  One act tells what it does to the phase and
to the failure (`phase_perform`, `failure_perform`); the rest is by induction on the acts.
-/
namespace RemotePyMite
variable {σ ν : Type}

/-- The reason for which a channel that reads breaks when this arrives, if it does. -/
def Arrival.breaks : Arrival → Option String
  | .chunk _ => none
  | .closed => some Channel.closedReason
  | .failing error =>
    if Channel.isIdle error.kind then none else some (Channel.unreadableReason error)

namespace Channel

/-- What host, target and link do to a channel. -/
inductive Act (ν : Type) where
  /-- How the opening of the link and the start of its reader turn out. -/
  | connect (opened : Except LinkError Link) (started : Except IoError Unit)
  | quit
  | send (message : Message)
  /-- One more recorder. -/
  | register
  | resize (size : Nat)
  | change (change : ν)
  | arrive (arrival : Arrival)

/-- The reason for which an act breaks a channel that reads, if it does. -/
def Act.breaks : Act ν → Option String
  | .arrive arrival => arrival.breaks
  | _ => none

section Connection
variable {r : Receiver σ ν} {c : Channel σ ν}

/-- The error of a send on a channel that is not connected. -/
def refusal (c : Channel σ ν) : SessionError :=
  match c.failure with
  | some reason => .channelBroken reason
  | none => .notConnected

theorem transmit_of_not_connected (hc : c.isConnected = false) (m : Message) :
    c.transmit m = (.error c.refusal,c) := by
  unfold transmit refusal
  cases hf : c.failure with
  | some reason => rfl
  | none =>
    have hclosed : c.phase.isOpen = false := by
      simpa [isConnected,hf] using hc
    simp only [hclosed,Bool.false_eq_true,↓reduceIte]

theorem isReading_iff : c.isReading = true ↔ c.phase = .running ∧ c.failure = none := by
  simp [isReading]

theorem isConnected_iff :
    c.isConnected = true ↔ (c.phase = .running ∨ c.phase = .unread) ∧ c.failure = none := by
  unfold isConnected
  cases c.phase <;> simp [ChannelPhase.isOpen]

theorem isReading_of_not_connected (hc : c.isConnected = false) : c.isReading = false := by
  rw [Bool.eq_false_iff,Ne,isReading_iff]
  rintro ⟨hphase,hfailure⟩
  rw [isConnected_iff.mpr ⟨.inl hphase,hfailure⟩] at hc
  cases hc

theorem connectOver_of_not_fresh (hc : c.phase ≠ .fresh) (opened : Except LinkError Link)
    (started : Except IoError Unit) : (c.connectOver opened started).2 = c := by
  unfold connectOver
  cases hphase : c.phase <;> simp_all

@[simp] theorem failure_connectOver (c : Channel σ ν) (opened : Except LinkError Link)
    (started : Except IoError Unit) : (c.connectOver opened started).2.failure = c.failure := by
  unfold connectOver
  cases c.phase <;> cases opened <;> cases started <;> rfl

theorem take_of_not_reading (hc : c.isReading = false) (arrival : Arrival) :
    c.take r arrival = c := by
  simp [take,hc]

theorem phase_failure_take (hc : c.isReading = true) (arrival : Arrival) :
    (c.take r arrival).phase = c.phase ∧
      (c.take r arrival).failure = arrival.breaks := by
  have hnone := (isReading_iff.mp hc).2
  unfold take
  rw [if_pos hc]
  cases arrival with
  | chunk bytes =>
    obtain ⟨hphase,hfailure⟩ := phase_failure_reads r (bytes.pieces readSize) c
    exact ⟨hphase,hfailure.trans hnone⟩
  | closed => exact ⟨rfl,rfl⟩
  | failing error =>
    dsimp only [Arrival.breaks]
    split
    · exact ⟨rfl,hnone⟩
    · exact ⟨rfl,rfl⟩

end Connection

variable (r : Receiver σ ν)

/-- A channel with a receiver and recorders, after one more act. -/
def perform (c : Channel (σ × Recorders) (ν ⊕ Unit)) : Act ν → Channel (σ × Recorders) (ν ⊕ Unit)
  | .connect opened started => (c.connectOver opened started).2
  | .quit => c.quit
  | .send message => (c.transmit message).2
  | .register => c.change r.withRecorders (.inr ())
  | .resize size => { c with segmentSize := size }
  | .change change => c.change r.withRecorders (.inl change)
  | .arrive arrival => c.take r.withRecorders arrival

def run (c : Channel (σ × Recorders) (ν ⊕ Unit)) (acts : List (Act ν)) :
    Channel (σ × Recorders) (ν ⊕ Unit) :=
  acts.foldl (perform r) c

variable {r} {c : Channel (σ × Recorders) (ν ⊕ Unit)}

theorem run_append (c : Channel (σ × Recorders) (ν ⊕ Unit)) (a b : List (Act ν)) :
    run r c (a ++ b) = run r (run r c a) b :=
  List.foldl_append

theorem phase_perform (c : Channel (σ × Recorders) (ν ⊕ Unit)) (a : Act ν) :
    (perform r c a).phase =
      match a with
      | .connect opened started => (c.connectOver opened started).2.phase
      | .quit => .ended
      | _ => c.phase := by
  cases a with
  | send m => exact (phase_failure_transmit c m).1
  | arrive arrival =>
    cases hc : c.isReading with
    | true => exact (phase_failure_take hc arrival).1
    | false => rw [perform,take_of_not_reading hc]
  | _ => rfl

/-- The one way to a failure is an act that breaks a channel that reads. -/
theorem failure_perform (c : Channel (σ × Recorders) (ν ⊕ Unit)) (a : Act ν) :
    (perform r c a).failure = if c.isReading then a.breaks else c.failure := by
  have hsame (h : (perform r c a).failure = c.failure) (hnone : a.breaks = none) :
      (perform r c a).failure = if c.isReading then a.breaks else c.failure := by
    split
    · next hc => rw [h,hnone,(isReading_iff.mp hc).2]
    · exact h
  cases a with
  | connect opened started => exact hsame (failure_connectOver c opened started) rfl
  | send m => exact hsame (phase_failure_transmit c m).2 rfl
  | arrive arrival =>
    cases hc : c.isReading with
    | true => exact (phase_failure_take hc arrival).2
    | false => rw [perform,take_of_not_reading hc,if_neg (by decide)]
  | _ => exact hsame rfl rfl

/-- The channel was open and is not connected any more, or never will be. -/
def Over (c : Channel σ ν) : Prop :=
  c.phase ≠ .fresh ∧ c.isConnected = false

/-- What is over stays so, and nothing reaches the link. -/
theorem Over.perform (hc : Over c) (a : Act ν) :
    Over (perform r c a) ∧ (perform r c a).link = c.link ∧
      (perform r c a).failure = c.failure := by
  obtain ⟨hfresh,hlost⟩ := hc
  have hdeaf := isReading_of_not_connected hlost
  have hfailure := failure_perform (r := r) c a
  rw [hdeaf,if_neg (by decide)] at hfailure
  refine ⟨?_,?_,hfailure⟩
  · have hphase := phase_perform (r := r) c a
    cases a with
    | connect opened started =>
      rw [Channel.perform,connectOver_of_not_fresh hfresh]
      exact ⟨hfresh,hlost⟩
    | quit => exact ⟨by simp [hphase],by simp [isConnected,hphase,ChannelPhase.isOpen]⟩
    | _ => exact ⟨by rwa [hphase],by rw [isConnected,hphase,hfailure]; exact hlost⟩
  · cases a with
    | connect opened started => rw [Channel.perform,connectOver_of_not_fresh hfresh]
    | send m => rw [Channel.perform,transmit_of_not_connected hlost]
    | arrive arrival => rw [Channel.perform,take_of_not_reading hdeaf]
    | _ => rfl

theorem Over.run (hc : Over c) (acts : List (Act ν)) :
    Over (run r c acts) ∧ (run r c acts).link = c.link ∧ (run r c acts).failure = c.failure := by
  induction acts generalizing c with
  | nil => exact ⟨hc,rfl,rfl⟩
  | cons a rest ih =>
    obtain ⟨hover,hlink,hfailure⟩ := hc.perform (r := r) a
    obtain ⟨hover',hlink',hfailure'⟩ := ih hover
    exact ⟨hover',hlink'.trans hlink,hfailure'.trans hfailure⟩

theorem ended_perform (hc : c.phase = .ended) (a : Act ν) : (perform r c a).phase = .ended := by
  rw [phase_perform]
  cases a with
  | connect opened started => dsimp only; rwa [connectOver_of_not_fresh (by simp [hc])]
  | quit => rfl
  | _ => exact hc

theorem ended_run (hc : c.phase = .ended) (acts : List (Act ν)) :
    (run r c acts).phase = .ended := by
  induction acts generalizing c with
  | nil => exact hc
  | cons a rest ih => exact ih (ended_perform hc a)

theorem ended_of_quit {acts : List (Act ν)} (h : .quit ∈ acts) :
    (run r c acts).phase = .ended := by
  obtain ⟨before,after,rfl⟩ := List.append_of_mem h
  rw [run_append]
  exact ended_run (c := (run r c before).quit) rfl after

/-- One of the acts is done to the channel when `φ` holds of both. -/
def Happened (r : Receiver σ ν) (φ : Channel (σ × Recorders) (ν ⊕ Unit) → Act ν → Prop)
    (c : Channel (σ × Recorders) (ν ⊕ Unit)) (acts : List (Act ν)) : Prop :=
  ∃ before a after, acts = before ++ a :: after ∧ φ (run r c before) a

theorem happened_concat {φ : Channel (σ × Recorders) (ν ⊕ Unit) → Act ν → Prop} {acts : List (Act ν)}
    {a : Act ν} : Happened r φ c (acts ++ [a]) ↔ Happened r φ c acts ∨ φ (run r c acts) a := by
  constructor
  · rintro ⟨before,b,after,hsplit,hφ⟩
    obtain rfl | ⟨after,last,rfl⟩ := after.eq_nil_or_concat
    · obtain ⟨rfl,hb⟩ := List.append_inj' hsplit rfl
      cases hb
      exact .inr hφ
    · rw [List.concat_eq_append,← List.cons_append,← List.append_assoc] at hsplit
      exact .inl ⟨before,b,after,(List.append_inj' hsplit rfl).1,hφ⟩
  · rintro (⟨before,b,after,rfl,hφ⟩ | hφ)
    · exact ⟨before,b,after ++ [a],by simp,hφ⟩
    · exact ⟨acts,a,[],rfl,hφ⟩

/-- A phase that some acts lead to and that only a quit ends. -/
theorem phase_run_iff {p : ChannelPhase} {φ : Channel (σ × Recorders) (ν ⊕ Unit) → Act ν → Prop}
    (hstep : ∀ c a, (perform r c a).phase = p ↔ a ≠ .quit ∧ (c.phase = p ∨ φ c a))
    (hφ : ∀ c a, φ c a → c.phase ≠ .ended) (hc : c.phase ≠ p) (acts : List (Act ν)) :
    (run r c acts).phase = p ↔ Happened r φ c acts ∧ .quit ∉ acts := by
  induction acts using List.reverseRecOn with
  | nil => simp [run,hc,Happened]
  | append_singleton acts a ih =>
    have hrun : run r c (acts ++ [a]) = perform r (run r c acts) a := run_append c acts [a]
    rw [hrun,hstep,happened_concat,List.mem_append,List.mem_singleton,not_or,ih]
    constructor
    · rintro ⟨ha,⟨hbefore,hquit⟩ | hnow⟩
      · exact ⟨.inl hbefore,hquit,ha.symm⟩
      · exact ⟨.inr hnow,fun hquit => hφ _ _ hnow (ended_of_quit hquit),ha.symm⟩
    · rintro ⟨hbefore | hnow,hquit,ha⟩
      · exact ⟨Ne.symm ha,.inl ⟨hbefore,hquit⟩⟩
      · exact ⟨Ne.symm ha,.inr hnow⟩

/-- One of the acts is an opening that succeeds. -/
def Opened (r : Receiver σ ν) : Channel (σ × Recorders) (ν ⊕ Unit) → List (Act ν) → Prop :=
  Happened r fun c a =>
    ∃ opened started, a = .connect opened started ∧ (c.connectOver opened started).1 = .ok ()

/-- One of the acts is an opening that fails with the error of the start of the reader. -/
def Stranded (r : Receiver σ ν) : Channel (σ × Recorders) (ν ⊕ Unit) → List (Act ν) → Prop :=
  Happened r fun c a => ∃ link error, a = .connect (.ok link) (.error error) ∧
    (c.connectOver (.ok link) (.error error)).1 = .error (.link (.io error))

/-- A channel runs from an opening that succeeds until the host quits. -/
theorem phase_running_iff (hc : c.phase = .fresh) (acts : List (Act ν)) :
    (run r c acts).phase = .running ↔ Opened r c acts ∧ .quit ∉ acts := by
  refine phase_run_iff (fun c a => ?_) ?_ (by simp [hc]) acts
  · rw [phase_perform]
    cases a with
    | connect opened started =>
      simp only [connectOver]
      cases hphase : c.phase <;> cases opened <;> cases started <;> simp [hphase]
    | _ => simp
  · rintro c a ⟨opened,started,rfl,hok⟩ hended
    simp [connectOver,hended] at hok

/-- A channel stays open without a reader from the opening that left it so until the host quits. -/
theorem phase_unread_iff (hc : c.phase = .fresh) (acts : List (Act ν)) :
    (run r c acts).phase = .unread ↔ Stranded r c acts ∧ .quit ∉ acts := by
  refine phase_run_iff (fun c a => ?_) ?_ (by simp [hc]) acts
  · rw [phase_perform]
    cases a with
    | connect opened started =>
      simp only [connectOver]
      cases hphase : c.phase <;> cases opened <;> cases started <;> simp [hphase]
    | _ => simp
  · rintro c a ⟨link,error,rfl,herror⟩ hended
    simp [connectOver,hended] at herror

/-- A failure comes after the opening. -/
theorem phase_ne_fresh_of_failure (hc : c.failure = none) {acts : List (Act ν)}
    (h : (run r c acts).failure ≠ none) : (run r c acts).phase ≠ .fresh := by
  induction acts using List.reverseRecOn with
  | nil => exact absurd hc h
  | append_singleton acts a ih =>
    have hrun : run r c (acts ++ [a]) = perform r (run r c acts) a := run_append c acts [a]
    rw [hrun,failure_perform] at h
    have hfresh : (run r c acts).phase ≠ .fresh := by
      split at h
      · next hreads => simp [(isReading_iff.mp hreads).1]
      · exact ih h
    rw [hrun,phase_perform]
    cases a with
    | connect opened started => dsimp only; rwa [connectOver_of_not_fresh hfresh]
    | quit => simp
    | _ => exact hfresh

/-- Where nothing reads nothing fails. -/
theorem failure_of_unread (hc : c.failure = none) {acts : List (Act ν)}
    (h : (run r c acts).phase = .unread) : (run r c acts).failure = none := by
  induction acts using List.reverseRecOn with
  | nil => exact hc
  | append_singleton acts a ih =>
    have hrun : run r c (acts ++ [a]) = perform r (run r c acts) a := run_append c acts [a]
    rw [hrun,phase_perform] at h
    have hbefore : (run r c acts).isReading = false ∧ (run r c acts).failure = none := by
      cases hf : (run r c acts).failure with
      | none =>
        refine ⟨?_,rfl⟩
        rw [Bool.eq_false_iff,Ne,isReading_iff]
        rintro ⟨hrunning,-⟩
        cases a with
        | connect opened started =>
          dsimp only at h
          rw [connectOver_of_not_fresh (by simp [hrunning]),hrunning] at h
          cases h
        | quit => cases h
        | _ => simp [hrunning] at h
      | some reason =>
        have hfresh : (run r c acts).phase ≠ .fresh := phase_ne_fresh_of_failure hc (by simp [hf])
        have hsame : (run r c acts).phase = .unread := by
          cases a with
          | connect opened started => dsimp only at h; rwa [connectOver_of_not_fresh hfresh] at h
          | quit => cases h
          | _ => exact h
        rw [ih hsame] at hf
        cases hf
    rw [hrun,failure_perform,hbefore.1,if_neg (by decide),hbefore.2]

/-- After a quit or a failure a channel is over. -/
theorem over_of_quit_or_failure (hc : c.failure = none) {acts : List (Act ν)}
    (h : .quit ∈ acts ∨ (run r c acts).failure ≠ none) : Over (run r c acts) := by
  rcases h with hquit | hfailure
  · have hended := ended_of_quit (r := r) (c := c) hquit
    exact ⟨by simp [hended],by simp [isConnected,hended,ChannelPhase.isOpen]⟩
  · refine ⟨phase_ne_fresh_of_failure hc hfailure,?_⟩
    cases hf : (run r c acts).failure with
    | none => exact absurd hf hfailure
    | some reason => simp [isConnected,hf]

end Channel

end RemotePyMite
