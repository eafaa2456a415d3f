import RemotePyMite.Proofs.Channel.Invariant
import RemotePyMite.Proofs.Frame.Delivery

/-! # What arrives at a channel

A channel takes in what the target writes in pieces and hands on a message as soon as it is whole,
which may change the length of full segments for what follows.  Where the pieces are cut makes no
difference (`foldl_read`), so a channel that rests and is answered hands on the messages of the
answer and rests again (`Rests.exchange`).
-/
namespace RemotePyMite

/-- The front of a clean stream is clean. -/
theorem Cut.Clean.of_append {front more : Bytes} (h : Clean (front ++ more)) : Clean front := by
  generalize hs : front ++ more = stream at h
  induction h generalizing front with
  | @intro stream hr hl ih =>
    subst hs
    have hn : ¬Refused front := fun h => hr (h.append more)
    refine .intro hn fun hw => ?_
    have ha := ofBuffer_append hn more
    refine ih ?_ ?_
    · rw [ha]
      exact isWhole_extend hw more
    · rw [ha,left_extend hw]

/-- All that is written to the stream is taken at once. -/
def Stream.Works (s : Stream) : Prop :=
  s.writes = [] ∧ s.flushes = []

theorem Stream.Works.writeAll {s : Stream} (h : s.Works) (bytes : Bytes) :
    ∃ s', s.writeAll bytes = (.ok (),s') ∧ s'.Works := by
  rw [Stream.writeAll]
  split
  · exact ⟨s,rfl,h⟩
  · split <;> simp_all [Stream.Works]

theorem Stream.Works.flush {s : Stream} (h : s.Works) : ∃ s', s.flush = (.ok (),s') ∧ s'.Works := by
  rw [Stream.flush]
  split <;> simp_all [Stream.Works]

theorem FrameWriter.send_of_works {w : FrameWriter} (hw : w.stream.Works) {m : Message} {frame : Frame}
    (h : m.frame (w.lastSequence + 1) = .ok frame) :
    ∃ stream, w.send m = (.ok frame.sequence,⟨stream,frame.sequence⟩) ∧ stream.Works := by
  obtain ⟨written,hwritten,hworks⟩ := hw.writeAll frame.bytes
  obtain ⟨flushed,hflushed,hdone⟩ := hworks.flush
  rw [Message.sequence_of_frame h]
  unfold FrameWriter.send
  dsimp only
  rw [h]
  dsimp only
  rw [hwritten]
  dsimp only
  rw [hflushed]
  exact ⟨flushed,rfl,hdone⟩

/-- A target that says nothing about acknowledgments. -/
def Target.IgnoresAcks (target : Target) : Prop :=
  ∀ earlier frame, frame.kind = ackId → (target.react earlier frame).isSilent = true

namespace Channel
variable {σ ν : Type} {r : Receiver σ ν} {c : Channel σ ν} {d : Decoder}

def withDecoder (c : Channel σ ν) (d : Decoder) : Channel σ ν :=
  { c with decoder := d }

@[simp] theorem decoder_withDecoder (c : Channel σ ν) (d : Decoder) :
    (c.withDecoder d).decoder = d := rfl

@[simp] theorem withDecoder_withDecoder (c : Channel σ ν) (d e : Decoder) :
    (c.withDecoder d).withDecoder e = c.withDecoder e := rfl

theorem transmit_withDecoder (c : Channel σ ν) (d : Decoder) (m : Message) :
    ((c.withDecoder d).transmit m).2 = (c.transmit m).2.withDecoder d := by
  obtain ⟨phase,failure,size,sequence,_,link,state,log⟩ := c
  unfold withDecoder transmit
  cases failure with
  | some reason => rfl
  | none =>
    dsimp only
    split
    · cases m.frame (sequence + 1) with
      | error e => rfl
      | ok frame =>
        dsimp only [writer]
        rcases FrameWriter.send ⟨link.output,sequence⟩ m with ⟨_ | _,w⟩ <;> rfl
    · rfl

@[simp] theorem dispatch_withDecoder (c : Channel σ ν) (d : Decoder) (m : Message) :
    (c.withDecoder d).dispatch r m = (c.dispatch r m).withDecoder d := by
  let heard : Channel σ ν := { c with
    receiver := (r.receive c.receiver m).state
    segmentSize := (r.receive c.receiver m).segmentSize.getD c.segmentSize
    log := .received m :: c.log }
  unfold dispatch withDecoder
  dsimp only
  cases (r.receive c.receiver m).reply with
  | none => rfl
  | some reply => exact transmit_withDecoder heard d reply

theorem drain_of_none (h : c.decoder.next c.segmentSize = (none,d)) :
    c.drain r = c.withDecoder d := by
  rw [drain]
  split <;> simp_all [withDecoder]

theorem drain_of_some {m : Message} (h : c.decoder.next c.segmentSize = (some m,d)) :
    c.drain r = ((c.dispatch r m).withDecoder d).drain r := by
  rw [← dispatch_withDecoder,drain]
  split <;> simp_all [withDecoder]

theorem drain_congr (h : c.decoder.next c.segmentSize = d.next c.segmentSize) :
    c.drain r = (c.withDecoder d).drain r := by
  cases hn : d.next c.segmentSize with
  | mk m e =>
    cases m with
    | none => rw [drain_of_none (h.trans hn),drain_of_none (c := c.withDecoder d) hn,
        withDecoder_withDecoder]
    | some m => rw [drain_of_some (h.trans hn),drain_of_some (c := c.withDecoder d) hn,
        dispatch_withDecoder,withDecoder_withDecoder]

/-- Handing on what is whole before more bytes come changes nothing in the end. -/
theorem drain_push {more : Bytes} (h : Cut.Clean (c.decoder.buffer ++ more)) :
    ((c.drain r).withDecoder ((c.drain r).decoder.push more)).drain r =
      (c.withDecoder (c.decoder.push more)).drain r := by
  fun_induction drain r c with
  | case1 c e hn =>
    obtain ⟨hp,-⟩ := Decoder.next_push c.segmentSize c.decoder h
    rw [hn] at hp
    exact (drain_congr (c := c.withDecoder (c.decoder.push more)) hp).symm
  | case2 c m e hn ih =>
    obtain ⟨hp,hc⟩ := Decoder.next_push c.segmentSize c.decoder h
    rw [hn] at hp hc
    change Cut.Clean (((c.withDecoder e).dispatch r m).decoder.buffer ++ more) → _ at ih
    rw [drain_of_some (c := c.withDecoder (c.decoder.push more)) hp]
    refine (ih (by simpa using hc)).trans ?_
    change (((c.withDecoder e).dispatch r m).withDecoder
      (((c.withDecoder e).dispatch r m).decoder.push more)).drain r = _
    simp only [dispatch_withDecoder,decoder_withDecoder,withDecoder_withDecoder]

/-- It makes no difference how a stream is cut into the pieces that are read. -/
theorem foldl_read {pieces : List Bytes} (h : Cut.Clean (c.decoder.buffer ++ pieces.flatten)) :
    pieces.foldl (read r) (c.drain r) =
      (c.withDecoder (c.decoder.push pieces.flatten)).drain r := by
  induction pieces generalizing c with
  | nil => rw [List.flatten_nil,Decoder.push_nil]; rfl
  | cons piece rest ih =>
    rw [List.flatten_cons,← List.append_assoc] at h
    have hread : (c.drain r).read r piece = (c.withDecoder (c.decoder.push piece)).drain r :=
      drain_push h.of_append
    rw [List.foldl_cons,hread,ih (c := c.withDecoder (c.decoder.push piece)) h]
    simp [Decoder.push]

theorem foldl_take (hc : c.isReading = true) (chunks : List Bytes) :
    (chunks.map .chunk).foldl (take r) c =
      (chunks.flatMap (Bytes.pieces readSize)).foldl (read r) c := by
  induction chunks generalizing c with
  | nil => rfl
  | cons chunk rest ih =>
    have hreads : ((Bytes.pieces readSize chunk).foldl (read r) c).isReading = true := by
      obtain ⟨hphase,hfailure⟩ := phase_failure_reads r (Bytes.pieces readSize chunk) c
      rwa [isReading,hphase,hfailure]
    have htake : c.take r (.chunk chunk) = (Bytes.pieces readSize chunk).foldl (read r) c := by
      rw [take,if_pos hc]
    rw [List.map_cons,List.foldl_cons,List.flatMap_cons,List.foldl_append,htake]
    exact ih hreads

/-- What a message does to the state of the receiver and to the length of full segments. -/
def hear (r : Receiver σ ν) (x : σ × Nat) (m : Message) : σ × Nat :=
  ((r.receive x.1 m).state,(r.receive x.1 m).segmentSize.getD x.2)

/-- The frames carry the message in the segments that are expected when it comes, and the receiver
does no more than acknowledge it. -/
structure Fits (r : Receiver σ ν) (x : σ × Nat) (m : Message) (frames : List Frame) : Prop where
  positive : 0 < x.2
  size_le : x.2 ≤ Frame.maxData
  carried : m.CarriedBy x.2 frames
  length_le : ∀ data, m.toBytes = .ok data → data.length ≤ maxReassembled
  reply : ∀ reply, (r.receive x.1 m).reply = some reply → reply = .ack

inductive Carried (r : Receiver σ ν) : σ × Nat → List Message → List Frame → Prop
  | nil (x : σ × Nat) : Carried r x [] []
  | cons {x : σ × Nat} {m : Message} {messages : List Message} {frames more : List Frame}
      (h : Fits r x m frames) (hr : Carried r (hear r x m) messages more) :
      Carried r x (m :: messages) (frames ++ more)

theorem Carried.clean {x : σ × Nat} {messages : List Message} {frames : List Frame}
    (h : Carried r x messages frames) : Cut.Clean (frames.flatMap Frame.bytes) := by
  have hsend : ∀ f ∈ frames, Passage.Sendable ⟨.silence,f,none⟩ := by
    induction h with
    | nil => simp
    | cons h _ ih =>
      intro f hf
      rcases List.mem_append.mp hf with hf | hf
      · exact h.carried.sendable h.positive h.size_le f hf
      · exact ih f hf
  have hwire : Passage.wire (frames.map fun f => ⟨.silence,f,none⟩) = frames.flatMap Frame.bytes := by
    rw [Passage.wire,List.flatMap_map]
    rfl
  have hps : ∀ p ∈ frames.map fun f => (⟨.silence,f,none⟩ : Passage), p.Sendable := by
    simpa using hsend
  have hc := Passage.clean_wire hps .silence
  rwa [hwire,Noise.silence,List.append_nil] at hc

theorem Carried.flatMap_ne_nil {x : σ × Nat} {messages : List Message} {frames : List Frame}
    (h : Carried r x messages frames) (hm : messages ≠ []) : frames.flatMap Frame.bytes ≠ [] := by
  cases h with
  | nil => exact absurd rfl hm
  | cons h _ =>
    obtain ⟨f,more,hf⟩ := List.exists_cons_of_ne_nil h.carried.ne_nil
    rw [hf]
    simp [Frame.bytes,Frame.body]

/-- The channel is connected to the target, which will answer so many times more and has nothing
on its way; all that the host writes reaches it. -/
structure Listens (c : Channel σ ν) (target : Target) (answers : Nat) (x : σ × Nat) : Prop where
  phase : c.phase = .running
  failure : c.failure = none
  target : c.link.target = target
  answersLeft : c.link.answersLeft = answers
  inbox : c.link.inbox = []
  closing : c.link.closing = false
  works : c.link.output.Works
  receiver : c.receiver = x.1
  segmentSize : c.segmentSize = x.2

/-- A channel that listens and has nothing left of an earlier message. -/
structure Rests (c : Channel σ ν) (target : Target) (answers : Nat) (x : σ × Nat) : Prop
    extends Listens c target answers x where
  buffer : c.decoder.buffer = []
  pending : c.decoder.pending = none

variable {target : Target} {answers : Nat} {x : σ × Nat}

/-- A connected channel whose writing works sends whatever a frame can hold. -/
theorem transmit_of_works (hc : c.isConnected = true) (hw : c.link.output.Works) {m : Message} {frame : Frame}
    (hf : m.frame (c.lastSequence + 1) = .ok frame) :
    ∃ output, output.Works ∧ c.transmit m = (.ok frame.sequence,
      { c with
        lastSequence := frame.sequence
        link := { c.link with output }.deliver frame
        log := .sent frame :: c.log }) := by
  rw [Channel.isConnected,Bool.and_eq_true,Option.isNone_iff_eq_none] at hc
  obtain ⟨output,hsend,hworks⟩ := FrameWriter.send_of_works (w := c.writer) hw hf
  refine ⟨output,hworks,?_⟩
  simp only [Channel.transmit,hc.1,hc.2,↓reduceIte,hf,hsend]

theorem Listens.isReading (h : c.Listens target answers x) : c.isReading = true := by
  simp [Channel.isReading,h.phase,h.failure]

theorem Listens.isConnected (h : c.Listens target answers x) : c.isConnected = true := by
  simp [Channel.isConnected,h.phase,h.failure,ChannelPhase.isOpen]

theorem Listens.dispatch (h : c.Listens target answers x) (ht : target.IgnoresAcks) {m : Message}
    (hreply : ∀ reply, (r.receive x.1 m).reply = some reply → reply = .ack) :
    (c.dispatch r m).Listens target answers (hear r x m) := by
  rw [← h.receiver] at hreply
  have hhear : hear r x m = ((r.receive c.receiver m).state,
      (r.receive c.receiver m).segmentSize.getD c.segmentSize) := by
    rw [hear,h.receiver,h.segmentSize]
  rw [hhear]
  unfold Channel.dispatch
  dsimp only
  let heard : Channel σ ν := { c with
    receiver := (r.receive c.receiver m).state
    segmentSize := (r.receive c.receiver m).segmentSize.getD c.segmentSize
    log := .received m :: c.log }
  have hheard : heard.Listens target answers ((r.receive c.receiver m).state,
      (r.receive c.receiver m).segmentSize.getD c.segmentSize) :=
    ⟨h.phase,h.failure,h.target,h.answersLeft,h.inbox,h.closing,h.works,rfl,rfl⟩
  cases hr : (r.receive c.receiver m).reply with
  | none => exact hheard
  | some reply =>
    cases hreply reply hr
    let frame : Frame := ⟨c.lastSequence + 1,Target.ackId,[]⟩
    have hquiet : (c.link.target.react c.link.received frame).isSilent = true := by
      rw [h.target]
      exact ht _ _ rfl
    have hframe : Message.ack.frame (c.lastSequence + 1) = .ok frame := rfl
    obtain ⟨output,hworks,htransmit⟩ := transmit_of_works hheard.isConnected h.works hframe
    change (heard.transmit .ack).2.Listens _ _ _
    rw [htransmit]
    dsimp only [heard]
    rw [Link.deliver]
    dsimp only
    rw [hquiet,if_pos rfl]
    exact ⟨h.phase,h.failure,h.target,h.answersLeft,h.inbox,h.closing,hworks,rfl,rfl⟩

theorem Listens.withDecoder (h : c.Listens target answers x) (d : Decoder) :
    (c.withDecoder d).Listens target answers x :=
  ⟨h.phase,h.failure,h.target,h.answersLeft,h.inbox,h.closing,h.works,h.receiver,h.segmentSize⟩

/-- Frames that carry messages are handed on as these messages, and nothing is left of them. -/
theorem Listens.drain {messages : List Message} {frames : List Frame} (h : c.Listens target answers x)
    (ht : target.IgnoresAcks) (hc : Carried r x messages frames)
    (hb : c.decoder.buffer = frames.flatMap Frame.bytes) (hp : c.decoder.pending = none) :
    (c.drain r).Rests target answers (messages.foldl (hear r) x) := by
  induction hc generalizing c with
  | nil x =>
    have hn : c.decoder.next c.segmentSize = (none,{ c.decoder with buffer := [] }) := by
      refine Decoder.next_of_idle (Decoder.step_of_waiting ?_)
      rw [hb]
      rfl
    rw [drain_of_none hn]
    exact ⟨h.withDecoder _,rfl,hp⟩
  | @cons x m messages frames more hm _ ih =>
    rw [List.flatMap_append] at hb
    obtain ⟨n,hn⟩ := hm.carried.next hm.positive hm.size_le hm.length_le hb hp
    rw [← h.segmentSize] at hn
    have hl := (h.dispatch ht hm.reply).withDecoder ⟨more.flatMap Frame.bytes,n,none⟩
    rw [drain_of_some hn,List.foldl_cons]
    exact ih hl rfl rfl

theorem Rests.drain (h : c.Rests target answers x) : c.drain r = c := by
  have hn : c.decoder.next c.segmentSize = (none,{ c.decoder with buffer := [] }) := by
    refine Decoder.next_of_idle (Decoder.step_of_waiting ?_)
    rw [h.buffer]
    rfl
  rw [drain_of_none hn,← h.buffer]
  rfl

/-- What is on its way is taken in, and the channel rests again. -/
theorem Rests.settle {messages : List Message} {frames : List Frame} {chunks : List Bytes}
    (h : { c with link := { c.link with inbox := [] } }.Rests target answers x)
    (ht : target.IgnoresAcks) (hi : c.link.inbox = chunks.map .chunk) (hne : messages ≠ [])
    (hc : Carried r x messages frames) (hchunks : chunks.flatten = frames.flatMap Frame.bytes) :
    (c.settle r).Rests target answers (messages.foldl (hear r) x) := by
  have hpieces : (chunks.flatMap (Bytes.pieces readSize)).flatten = frames.flatMap Frame.bytes := by
    rw [← hchunks]
    clear hchunks hi
    induction chunks with
    | nil => rfl
    | cons chunk rest ih =>
      rw [List.flatMap_cons,List.flatten_append,Bytes.flatten_pieces,ih,List.flatten_cons]
  have htaken : (c.takeAll r).Rests target answers (messages.foldl (hear r) x) := by
    rw [takeAll,hi]
    generalize { c with link := { c.link with inbox := [] } } = c' at h
    have hclean : Cut.Clean (c'.decoder.buffer ++ (chunks.flatMap (Bytes.pieces readSize)).flatten) := by
      rw [hpieces,h.buffer,List.nil_append]
      exact hc.clean
    have hread := foldl_read (r := r) hclean
    rw [h.drain,hpieces] at hread
    rw [foldl_take h.isReading,hread]
    refine (h.withDecoder _).drain ht hc ?_ h.pending
    rw [decoder_withDecoder,Decoder.buffer_push,h.buffer,List.nil_append]
  have hmore : c.link.inbox.isEmpty = false := by
    rw [hi,List.isEmpty_map,List.isEmpty_eq_false_iff]
    rintro rfl
    exact hc.flatMap_ne_nil hne hchunks.symm
  have hdone : (c.takeAll r).link.inbox.isEmpty = true := by
    rw [htaken.inbox]
    rfl
  rw [Channel.settle,if_neg (by simp [hmore]),Channel.settle,if_pos hdone]
  exact htaken

/-- What the target writes carries messages that take the receiver from `x` to `y`. -/
def Leads (r : Receiver σ ν) (x : σ × Nat) (reaction : Reaction) (y : σ × Nat) : Prop :=
  reaction.closes = false ∧ ∃ messages frames, messages ≠ [] ∧ Carried r x messages frames ∧
    reaction.chunks.flatten = frames.flatMap Frame.bytes ∧ messages.foldl (hear r) x = y

/-- A message that the target answers: the messages of the answer are handed on, and the channel
rests again. -/
theorem Rests.exchange {m : Message} {y : σ × Nat} (h : c.Rests target (answers + 1) x)
    (ht : target.IgnoresAcks) (hm : ∀ n, ∃ frame, m.frame n = .ok frame)
    (hreact : ∀ earlier n frame, m.frame n = .ok frame → Leads r x (target.react earlier frame) y) :
    ∃ n d, c.exchange r m = (.ok n,d) ∧ d.Rests target answers y := by
  obtain ⟨frame,hf⟩ := hm (c.lastSequence + 1)
  obtain ⟨hcloses,messages,frames,hne,hcarried,hflat,rfl⟩ := hreact c.link.received _ frame hf
  have hloud : (target.react c.link.received frame).isSilent = false := by
    rw [Reaction.isSilent,Bool.and_eq_false_iff,List.isEmpty_eq_false_iff]
    refine .inl fun h => hcarried.flatMap_ne_nil hne ?_
    rw [← hflat,h,List.flatten_nil]
  obtain ⟨output,hworks,htransmit⟩ := transmit_of_works h.isConnected h.works hf
  have hlink : { c.link with output }.deliver frame =
      { c.link with
        received := frame :: c.link.received
        answersLeft := answers
        inbox := (target.react c.link.received frame).chunks.map .chunk
        output } := by
    simp [Link.deliver,Link.put,h.target,hloud,h.answersLeft,h.closing,h.inbox,hcloses]
  rw [hlink] at htransmit
  refine ⟨frame.sequence,_,by rw [Channel.exchange,htransmit],?_⟩
  exact Rests.settle ⟨⟨h.phase,h.failure,h.target,rfl,rfl,h.closing,hworks,h.receiver,h.segmentSize⟩,
    h.buffer,h.pending⟩ ht rfl hne hcarried hflat

end Channel

end RemotePyMite
