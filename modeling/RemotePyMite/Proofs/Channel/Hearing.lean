import RemotePyMite.Proofs.Channel.Arrival
import RemotePyMite.Proofs.Channel.Lifecycle
import RemotePyMite.Proofs.Frame.Interleaving

/-! # What the recorders of a channel keep

A decoder that gets the bytes that arrive while a channel reads, and that knows nothing of
links and recorders, takes the same messages out of them as the channel hands on
(`drain_withRecorders`).  A recorder keeps those that come after its registration, and then one
notice if the link fails (`kept_run`).
-/
namespace RemotePyMite
variable {σ ν : Type}

namespace Recorders

def keepAll (recorders : Recorders) (notices : List Notice) : Recorders :=
  notices.foldl keep recorders

theorem keepAll_append (recorders : Recorders) (a b : List Notice) :
    recorders.keepAll (a ++ b) = (recorders.keepAll a).keepAll b :=
  List.foldl_append

theorem getElem?_keepAll {recorders : Recorders} {i : Nat} {kept : List Notice}
    (h : recorders[i]? = some kept) (notices : List Notice) :
    (recorders.keepAll notices)[i]? = some (notices.reverse ++ kept) := by
  induction notices generalizing recorders kept with
  | nil => exact h
  | cons notice rest ih =>
    have hone : (recorders.keep notice)[i]? = some (notice :: kept) := by
      rw [keep,List.getElem?_map,h]
      rfl
    rw [List.reverse_cons,List.append_assoc]
    exact ih hone

end Recorders

/-- A decoder with the state of a receiver, the length of full segments and the messages that were
taken out. -/
structure Hearing (σ : Type) where
  decoder : Decoder
  state : σ
  size : Nat
  found : List Message

namespace Hearing
open Channel (Act)

/-- Nothing was heard. -/
def silent (state : σ) : Hearing σ :=
  ⟨.empty,state,Frame.defaultIncomingSegmentSize,[]⟩

/-- All messages are taken out once a piece has come in; each may change the length of full
segments for the next. -/
def read (r : Receiver σ ν) (h : Hearing σ) (piece : Bytes) : Hearing σ :=
  let run := Decoder.finish (fun found => (found.foldl (Channel.hear r) (h.state,h.size)).2)
    ([],h.decoder.push piece)
  let x := run.1.foldl (Channel.hear r) (h.state,h.size)
  ⟨run.2,x.1,x.2,h.found ++ run.1⟩

/-- What is heard of an act on a channel. -/
def act (r : Receiver σ ν) (reading : Bool) (h : Hearing σ) : Act ν → Hearing σ
  | .resize size => { h with size }
  | .change change => { h with state := r.change h.state change }
  | .arrive (.chunk bytes) =>
    if reading then (bytes.pieces Channel.readSize).foldl (read r) h else h
  | a =>
    match a.breaks with
    | some reason => if reading then { h with state := r.broken h.state reason } else h
    | none => h

end Hearing

namespace Channel

/-- What is heard while a channel goes through some acts; nothing is, unless it reads. -/
def hearing (r : Receiver σ ν) (c : Channel (σ × Recorders) (ν ⊕ Unit)) (h : Hearing σ) :
    List (Act ν) → Hearing σ
  | [] => h
  | a :: rest => hearing r (perform r c a) (h.act r c.isReading a) rest

variable {r : Receiver σ ν} {c d e : Channel (σ × Recorders) (ν ⊕ Unit)} {h k l : Hearing σ}

theorem hearing_append (a b : List (Act ν)) :
    hearing r c h (a ++ b) = hearing r (run r c a) (hearing r c h a) b := by
  induction a generalizing c h with
  | nil => rfl
  | cons first rest ih => exact ih

/-- The channel has heard the same. -/
structure Heard (c : Channel (σ × Recorders) (ν ⊕ Unit)) (h : Hearing σ) : Prop where
  decoder : c.decoder = h.decoder
  state : c.receiver.1 = h.state
  size : c.segmentSize = h.size

/-- From one moment to another, these messages were heard and handed to the recorders. -/
structure Told (c : Channel (σ × Recorders) (ν ⊕ Unit)) (h : Hearing σ)
    (d : Channel (σ × Recorders) (ν ⊕ Unit)) (k : Hearing σ) (new : List Message) : Prop where
  heard : Heard d k
  found : k.found = h.found ++ new
  kept : d.receiver.2 = c.receiver.2.keepAll (new.map .message)

theorem Told.refl (hc : Heard c h) : Told c h c h [] :=
  ⟨hc,(List.append_nil _).symm,rfl⟩

theorem Told.trans {a b : List Message} (ha : Told c h d k a) (hb : Told d k e l b) :
    Told c h e l (a ++ b) := by
  refine ⟨hb.heard,?_,?_⟩
  · rw [hb.found,ha.found,List.append_assoc]
  · rw [hb.kept,ha.kept,List.map_append,Recorders.keepAll_append]

theorem segmentSize_transmit (c : Channel σ ν) (m : Message) :
    (c.transmit m).2.segmentSize = c.segmentSize := by
  obtain ⟨-,_,_,-,⟨_,ht⟩ | ⟨_,_,ht⟩⟩ | ⟨-,_,ht,-⟩ := transmit_cases c m <;> rw [ht]

theorem segmentSize_dispatch {r : Receiver σ ν} (c : Channel σ ν) (m : Message) :
    (c.dispatch r m).segmentSize = (r.receive c.receiver m).segmentSize.getD c.segmentSize := by
  unfold dispatch
  dsimp only
  split
  · rfl
  · exact segmentSize_transmit _ _

theorem hear_dispatch (c : Channel (σ × Recorders) (ν ⊕ Unit)) (m : Message) :
    ((c.dispatch r.withRecorders m).receiver.1,(c.dispatch r.withRecorders m).segmentSize) =
        hear r (c.receiver.1,c.segmentSize) m ∧
      (c.dispatch r.withRecorders m).receiver.2 = c.receiver.2.keep (.message m) := by
  rw [(dispatch_cases r.withRecorders c m).1,segmentSize_dispatch]
  exact ⟨rfl,rfl⟩

/-- A channel hands on what its decoder gives, each message with the length of full segments that
those before it left. -/
theorem drain_withRecorders (c : Channel (σ × Recorders) (ν ⊕ Unit)) (x : σ × Nat)
    (found : List Message) (hx : (c.receiver.1,c.segmentSize) = found.foldl (hear r) x) :
    let run := Decoder.finish (fun found => (found.foldl (hear r) x).2) (found,c.decoder)
    let d := c.drain r.withRecorders
    d.decoder = run.2 ∧ (d.receiver.1,d.segmentSize) = run.1.foldl (hear r) x ∧
      ∃ new, run.1 = found ++ new ∧ d.receiver.2 = c.receiver.2.keepAll (new.map .message) := by
  intro run d
  have hsize : (found.foldl (hear r) x).2 = c.segmentSize := (congrArg Prod.snd hx).symm
  unfold d run
  fun_induction drain r.withRecorders c generalizing found with
  | case1 c e hn =>
    rw [← hsize] at hn
    rw [Decoder.finish_of_none hn]
    exact ⟨rfl,hx,[],(List.append_nil _).symm,rfl⟩
  | case2 c m e hn ih =>
    have hfound : (found ++ [m]).foldl (hear r) x = hear r (c.receiver.1,c.segmentSize) m := by
      rw [List.foldl_append,← hx]
      rfl
    obtain ⟨hhear,hkeep⟩ := hear_dispatch (r := r) { c with decoder := e } m
    have hnext := hhear.trans hfound.symm
    rw [← hsize] at hn
    rw [Decoder.finish_of_some hn]
    obtain ⟨hdecoder,hstate,more,hmore,hkept⟩ := ih _ hnext (congrArg Prod.snd hnext).symm
    rw [decoder_dispatch] at hdecoder hstate hmore
    refine ⟨hdecoder,hstate,m :: more,?_,?_⟩
    · rw [hmore,List.append_assoc]
      rfl
    · rw [hkept,hkeep]
      rfl

theorem told_read (hc : Heard c h) (piece : Bytes) :
    ∃ new, Told c h (c.read r.withRecorders piece) (h.read r piece) new := by
  obtain ⟨decoder,state,size,found⟩ := h
  obtain ⟨rfl,rfl,rfl⟩ := hc
  obtain ⟨hdecoder,hstate,new,hnew,hkept⟩ := drain_withRecorders (r := r)
    { c with decoder := c.decoder.push piece } (c.receiver.1,c.segmentSize) [] rfl
  refine ⟨new,⟨hdecoder,congrArg Prod.fst hstate,congrArg Prod.snd hstate⟩,?_,hkept⟩
  exact congrArg (found ++ ·) hnew

theorem told_reads (hc : Heard c h) (pieces : List Bytes) :
    ∃ new, Told c h (pieces.foldl (Channel.read r.withRecorders) c) (pieces.foldl (Hearing.read r) h) new := by
  induction pieces generalizing c h with
  | nil => exact ⟨[],.refl hc⟩
  | cons piece rest ih =>
    obtain ⟨first,hfirst⟩ := told_read (r := r) hc piece
    obtain ⟨more,hmore⟩ := ih hfirst.heard
    exact ⟨first ++ more,hfirst.trans hmore⟩

/-- The notice of a failure that was not there before. -/
def lost (before after : Option String) : List Notice :=
  match before, after with
  | none, some reason => [.broken reason]
  | _, _ => []

/-- What a recorder keeps from one moment to another. -/
def notices (new : List Message) (before after : Option String) : List Notice :=
  new.map .message ++ lost before after

theorem notices_nil (failure : Option String) : notices [] failure failure = [] := by
  cases failure <;> rfl

theorem notices_same (new : List Message) (failure : Option String) :
    notices new failure failure = new.map .message := by
  cases failure <;> exact List.append_nil _

/-- A failure that is there stays, and nothing is heard after it. -/
theorem notices_append {a b : List Message} {first second third : Option String}
    (hfirst : first ≠ none → second = first) (hsecond : second ≠ none → b = [] ∧ third = second) :
    notices (a ++ b) first third = notices a first second ++ notices b second third := by
  cases second with
  | none =>
    cases first with
    | none => simp [notices,lost]
    | some reason => cases hfirst (by simp)
  | some reason =>
    obtain ⟨rfl,rfl⟩ := hsecond (by simp)
    rw [notices_nil,List.append_nil,List.append_nil]

/-- From one moment to another, these messages were heard, and every recorder kept them and the
notice of a failure. -/
structure Kept (c : Channel (σ × Recorders) (ν ⊕ Unit)) (h : Hearing σ)
    (d : Channel (σ × Recorders) (ν ⊕ Unit)) (k : Hearing σ) (new : List Message) : Prop where
  heard : Heard d k
  found : k.found = h.found ++ new
  kept : ∀ {i : Nat} {kept : List Notice}, c.receiver.2[i]? = some kept →
    d.receiver.2[i]? = some ((notices new c.failure d.failure).reverse ++ kept)

theorem Kept.of_told {new : List Message} (ht : Told c h d k new) (hf : d.failure = c.failure) :
    Kept c h d k new where
  heard := ht.heard
  found := ht.found
  kept := by
    intro i kept hi
    rw [ht.kept,hf,notices_same]
    exact Recorders.getElem?_keepAll hi _

theorem Kept.of_same (hd : Heard d k) (hfound : k.found = h.found) (hr : d.receiver.2 = c.receiver.2)
    (hf : d.failure = c.failure) : Kept c h d k [] :=
  .of_told ⟨hd,by rw [hfound,List.append_nil],hr⟩ hf

theorem Kept.of_fail (hc : Heard c h) (hf : c.failure = none) (reason : String) :
    Kept c h (c.fail r.withRecorders reason) { h with state := r.broken h.state reason } [] where
  heard := ⟨hc.decoder,congrArg (r.broken · reason) hc.state,hc.size⟩
  found := (List.append_nil _).symm
  kept := by
    intro i kept hi
    rw [hf]
    exact Recorders.getElem?_keepAll hi [.broken reason]

theorem Kept.trans {a b : List Message} (ha : Kept c h d k a) (hb : Kept d k e l b)
    (hfirst : c.failure ≠ none → d.failure = c.failure)
    (hsecond : d.failure ≠ none → b = [] ∧ e.failure = d.failure) : Kept c h e l (a ++ b) where
  heard := hb.heard
  found := by rw [hb.found,ha.found,List.append_assoc]
  kept := by
    intro i kept hi
    rw [hb.kept (ha.kept hi),notices_append hfirst hsecond,List.reverse_append,List.append_assoc]

theorem heard_connectOver (hc : Heard c h) (opened : Except LinkError Link)
    (started : Except IoError Unit) :
    Heard (c.connectOver opened started).2 h ∧ (c.connectOver opened started).2.receiver = c.receiver := by
  unfold connectOver
  cases c.phase <;> cases opened <;> cases started <;> exact ⟨⟨hc.decoder,hc.state,hc.size⟩,rfl⟩

theorem heard_transmit (hc : Heard c h) (m : Message) :
    Heard (c.transmit m).2 h ∧ (c.transmit m).2.receiver = c.receiver := by
  obtain ⟨-,_,_,-,⟨_,ht⟩ | ⟨_,_,ht⟩⟩ | ⟨-,_,ht,-⟩ := transmit_cases c m <;> rw [ht] <;>
    exact ⟨⟨hc.decoder,hc.state,hc.size⟩,rfl⟩

theorem Kept.register (hc : Heard c h) : Kept c h (c.change r.withRecorders (.inr ())) h [] where
  heard := ⟨hc.decoder,hc.state,hc.size⟩
  found := (List.append_nil _).symm
  kept := by
    intro i kept hi
    obtain ⟨hlt,-⟩ := List.getElem?_eq_some_iff.mp hi
    change (c.receiver.2 ++ [[]])[i]? = some ((notices [] c.failure c.failure).reverse ++ kept)
    rw [notices_nil,List.getElem?_append_left hlt]
    exact hi

theorem kept_arrive (hc : Heard c h) (arrival : Arrival) :
    ∃ new, Kept c h (c.take r.withRecorders arrival) (h.act r c.isReading (.arrive arrival)) new ∧
      (c.failure ≠ none → new = []) := by
  cases hreads : c.isReading with
  | false =>
    rw [take_of_not_reading hreads]
    refine ⟨[],?_,fun _ => rfl⟩
    cases arrival with
    | failing error =>
      unfold Hearing.act Act.breaks
      dsimp only
      split <;> exact .of_same hc rfl rfl rfl
    | _ => exact .of_same hc rfl rfl rfl
  | true =>
    have hnone := (isReading_iff.mp hreads).2
    unfold take
    rw [if_pos hreads]
    cases arrival with
    | chunk bytes =>
      obtain ⟨new,hnew⟩ := told_reads (r := r) hc (bytes.pieces readSize)
      have hfailure := (phase_failure_reads r.withRecorders (bytes.pieces readSize) c).2
      exact ⟨new,.of_told hnew hfailure,fun hf => absurd hnone hf⟩
    | closed => exact ⟨[],.of_fail hc hnone closedReason,fun _ => rfl⟩
    | failing error =>
      refine ⟨[],?_,fun _ => rfl⟩
      unfold Hearing.act Act.breaks Arrival.breaks
      dsimp only
      cases isIdle error.kind with
      | true => exact .of_same hc rfl rfl rfl
      | false => exact .of_fail hc hnone (unreadableReason error)

/-- What one act makes heard, and what the recorders keep of it. -/
theorem kept_perform (hc : Heard c h) (a : Act ν) :
    ∃ new, Kept c h (perform r c a) (h.act r c.isReading a) new ∧
      (c.failure ≠ none → new = []) := by
  have hnothing : ∀ {d k}, Kept c h d k [] → ∃ new, Kept c h d k new ∧ (c.failure ≠ none → new = []) :=
    fun hk => ⟨[],hk,fun _ => rfl⟩
  cases a with
  | connect opened started =>
    obtain ⟨hheard,hr⟩ := heard_connectOver hc opened started
    exact hnothing (.of_same hheard rfl (congrArg Prod.snd hr) (failure_connectOver c opened started))
  | quit => exact hnothing (.of_same ⟨hc.decoder,hc.state,hc.size⟩ rfl rfl rfl)
  | send m =>
    obtain ⟨hheard,hr⟩ := heard_transmit hc m
    exact hnothing (.of_same hheard rfl (congrArg Prod.snd hr) (phase_failure_transmit c m).2)
  | register => exact hnothing (.register hc)
  | resize size => exact hnothing (.of_same ⟨hc.decoder,hc.state,rfl⟩ rfl rfl rfl)
  | change change =>
    exact hnothing (.of_same ⟨hc.decoder,congrArg (r.change · change) hc.state,hc.size⟩ rfl rfl rfl)
  | arrive arrival => exact kept_arrive hc arrival

theorem failure_perform_of_failure (hc : c.failure ≠ none) (a : Act ν) :
    (perform r c a).failure = c.failure := by
  have hdeaf : c.isReading = false := by
    cases hf : c.failure with
    | none => exact absurd hf hc
    | some reason => simp [isReading,hf]
  rw [failure_perform,hdeaf,if_neg (by decide)]

theorem failure_run_of_failure (hc : c.failure ≠ none) (acts : List (Act ν)) :
    (run r c acts).failure = c.failure := by
  induction acts generalizing c with
  | nil => rfl
  | cons a rest ih =>
    have hone := failure_perform_of_failure (r := r) hc a
    exact (ih (hone ▸ hc)).trans hone

/-- What a recorder keeps from some moment on: the messages that are heard, and then the notice of
a failure. -/
theorem kept_run (hc : Heard c h) (acts : List (Act ν)) :
    ∃ new, Kept c h (run r c acts) (hearing r c h acts) new ∧ (c.failure ≠ none → new = []) := by
  induction acts generalizing c h with
  | nil => exact ⟨[],.of_same hc rfl rfl rfl,fun _ => rfl⟩
  | cons a rest ih =>
    obtain ⟨first,hfirst,hsilent⟩ := kept_perform (r := r) hc a
    obtain ⟨more,hmore,hnone⟩ := ih hfirst.heard
    refine ⟨first ++ more,hfirst.trans hmore (fun hf => failure_perform_of_failure hf a)
      (fun hf => ⟨hnone hf,failure_run_of_failure hf rest⟩),?_⟩
    intro hf
    rw [hsilent hf,hnone (failure_perform_of_failure (r := r) hf a ▸ hf)]
    rfl

/-- The life of a channel in one direction: opened, connected, over. -/
structure OneWay (r : Receiver σ ν) (c : Channel (σ × Recorders) (ν ⊕ Unit)) (h : Hearing σ)
    (acts : List (Act ν)) : Prop where
  connected_iff : (run r c acts).isConnected = true ↔
    (Opened r c acts ∨ Stranded r c acts) ∧ .quit ∉ acts ∧ (run r c acts).failure = none
  reading_iff : (run r c acts).isReading = true ↔
    Opened r c acts ∧ .quit ∉ acts ∧ (run r c acts).failure = none
  opened_iff : ((run r c acts).isConnected = true ↔
      Opened r c acts ∧ .quit ∉ acts ∧ (run r c acts).failure = none) ↔
    ¬(Stranded r c acts ∧ .quit ∉ acts)
  finished : ∀ before after, acts = before ++ after →
    .quit ∈ before ∨ (run r c before).failure ≠ none →
      (run r c acts).isConnected = false ∧ (run r c acts).link = (run r c before).link ∧
        ∀ m, (run r c acts).transmit m = (.error (run r c acts).refusal,run r c acts)
  failure_eq : ∀ before a after, acts = before ++ a :: after →
    (run r c (before ++ [a])).failure =
      if (run r c before).isReading then a.breaks else (run r c before).failure
  failure_stays : ∀ before after, acts = before ++ after → (run r c before).failure ≠ none →
    (run r c acts).failure = (run r c before).failure
  quit_again : .quit ∈ acts → (run r c acts).quit = run r c acts
  recorded : ∀ before after, acts = before ++ .register :: after →
    ∃ new kept, (hearing r c h acts).found = (hearing r c h before).found ++ new ∧
      (run r c acts).receiver.2[(run r c before).receiver.2.length]? = some kept ∧
      kept.reverse = notices new (run r c before).failure (run r c acts).failure

/-- Whatever happens to a channel, it is connected from its opening to the first quit or failure of
the link and never again; from then on nothing reaches the link and every send is refused.  It is
connected too after an opening that failed because nothing could be started that reads from the link,
but then nothing is read.  A recorder keeps what is heard from its registration on, and then one
notice of a failure. -/
theorem oneWay_run (r : Receiver σ ν) (link : Link) (state : σ) (acts : List (Act ν)) :
    OneWay r (ofLink link (state,[])) (.silent state) acts := by
  let c : Channel (σ × Recorders) (ν ⊕ Unit) := ofLink link (state,[])
  have hnone : c.failure = none := rfl
  have hfresh : c.phase = .fresh := rfl
  have hheard : Heard c (.silent state) := ⟨rfl,rfl,rfl⟩
  have hreading : (run r c acts).isReading = true ↔
      Opened r c acts ∧ .quit ∉ acts ∧ (run r c acts).failure = none := by
    rw [isReading_iff,phase_running_iff hfresh,and_assoc]
  have hconnected : (run r c acts).isConnected = true ↔
      (Opened r c acts ∨ Stranded r c acts) ∧ .quit ∉ acts ∧ (run r c acts).failure = none := by
    rw [isConnected_iff,phase_running_iff hfresh,phase_unread_iff hfresh,← or_and_right,and_assoc]
  constructor
  case connected_iff => exact hconnected
  case reading_iff => exact hreading
  case opened_iff =>
    rw [← hreading]
    constructor
    · intro hsame hstranded
      have hunread := (phase_unread_iff hfresh acts).mpr hstranded
      have hopen := isConnected_iff.mpr ⟨.inr hunread,failure_of_unread hnone hunread⟩
      rw [(isReading_iff.mp (hsame.mp hopen)).1] at hunread
      cases hunread
    · intro hstranded
      rw [hconnected,hreading]
      constructor
      · rintro ⟨hopened | hunread,hquit,hf⟩
        · exact ⟨hopened,hquit,hf⟩
        · exact absurd ⟨hunread,hquit⟩ hstranded
      · exact fun ⟨hopened,hrest⟩ => ⟨.inl hopened,hrest⟩
  case finished =>
    rintro before after rfl hend
    obtain ⟨hover,hlink,-⟩ := (over_of_quit_or_failure hnone hend).run (r := r) after
    rw [run_append]
    exact ⟨hover.2,hlink,transmit_of_not_connected hover.2⟩
  case failure_eq =>
    rintro before a after -
    rw [run_append]
    exact failure_perform _ a
  case failure_stays =>
    rintro before after rfl hf
    rw [run_append]
    exact failure_run_of_failure hf after
  case quit_again =>
    intro hquit
    have hended := ended_of_quit (r := r) (c := c) hquit
    rw [quit,← hended]
  case recorded =>
    rintro before after rfl
    obtain ⟨_,hbefore,-⟩ := kept_run (r := r) hheard before
    let joined := (run r c before).change r.withRecorders (.inr ())
    have hjoined : Heard joined (hearing r c (.silent state) before) := (Kept.register hbefore.heard).heard
    obtain ⟨new,hnew,-⟩ := kept_run (r := r) hjoined after
    have hempty : joined.receiver.2[(run r c before).receiver.2.length]? = some [] := by
      simp [joined,change,Receiver.withRecorders,Recorders.register]
    have hkept := hnew.kept hempty
    rw [List.append_nil] at hkept
    refine ⟨new,_,?_,?_,List.reverse_reverse _⟩
    · rw [hearing_append]
      exact hnew.found
    · rw [run_append]
      exact hkept

/-- After an opening that failed, a channel can be connected and send. -/
theorem isConnected_of_failed_opening :
    let link : Link := .ofTarget .mute
    let c : Channel (Recorders × Recorders) (Unit ⊕ Unit) := ofLink link ([],[])
    let acts : List (Act Unit) := [.connect (.ok link) (.error (.ofKind .wouldBlock))]
    (c.connectOver (.ok link) (.error (.ofKind .wouldBlock))).1 = .error (.link (.io (.ofKind .wouldBlock))) ∧
      ¬Opened Recorders.receiver c acts ∧ (run Recorders.receiver c acts).isConnected = true ∧
      ((run Recorders.receiver c acts).transmit .ack).1 = .ok 1 ∧
      ((run Recorders.receiver c acts).transmit .ack).2.link.received = [⟨1,Target.ackId,[]⟩] := by
  intro link c acts
  have hopened : ¬Opened Recorders.receiver c acts := by
    intro h
    have hphase := (phase_running_iff (r := Recorders.receiver) (c := c) rfl acts).mpr ⟨h,by simp [acts]⟩
    cases hphase
  have hopen : (run Recorders.receiver c acts).isConnected = true := rfl
  have hframe : Message.ack.frame 1 = .ok ⟨1,Target.ackId,[]⟩ := rfl
  obtain ⟨output,-,hsent⟩ := transmit_of_works hopen ⟨rfl,rfl⟩ hframe
  rw [hsent]
  exact ⟨rfl,hopened,hopen,rfl,rfl⟩

end Channel

end RemotePyMite
