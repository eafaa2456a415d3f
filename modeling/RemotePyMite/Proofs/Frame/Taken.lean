import RemotePyMite.Proofs.Frame.Grouping
import RemotePyMite.Proofs.Frame.Interleaving

/-! # The frames a decoder takes out of a stream

Whatever bytes arrive and in whatever pieces, each call takes some frames out of the stream, each of
them behind the ones before.  Reassembly runs over these frames, with the length of full segments that
was in force when each was taken out (`exists_rounds_of_holding`).
-/
namespace RemotePyMite

/-- A buffer from which nothing can be taken out keeps its end, or nothing. -/
theorem Cut.suffix_of_waiting {buffer left : Bytes} (h : ofBuffer buffer = .waiting left) :
    left <:+ buffer := by
  by_cases hr : Refused buffer
  · rw [ofBuffer_of_refused hr] at h
    cases h
    exact List.nil_suffix
  · rw [eq_dropWhile_of_waiting hr h]
    exact List.dropWhile_suffix _

/-- A buffer from which something can be taken out has a frame in it, perhaps with a wrong checksum. -/
theorem Cut.exists_of_isWhole {buffer : Bytes} (h : (ofBuffer buffer).isWhole = true) :
    ∃ noise f low high rest kind, buffer = noise ++ (f.body ++ [low,high]) ++ rest ∧
      Kind.ofWire? f.kind = some kind ∧ f.data.length ≤ Frame.maxData ∧
      ofBuffer buffer = if (Checksum.compute f.body).toNat = Word.ofLittleEndian [low,high] then
        .frame f kind rest else .corrupt rest := by
  have hstart : ∀ start rest, buffer.dropWhile (· ≠ Frame.startByte) = start :: rest →
      start = Frame.startByte := by
    intro start rest hd
    have hnot := List.head?_dropWhile_not (· ≠ Frame.startByte) buffer
    rw [hd] at hnot
    simpa using hnot
  have hsplit := List.takeWhile_append_dropWhile (p := (· ≠ Frame.startByte)) (l := buffer)
  unfold ofBuffer at h ⊢
  split at h
  · next start sequence id tail hd =>
    split at h
    · cases h
    · next kind hk =>
      split at h
      · cases h
      · next length body =>
        split at h
        · next low high rest hb =>
          let f : Frame := ⟨sequence,id,body.take length.toNat⟩
          have hlen : f.data.length = length.toNat := by
            have := congrArg List.length hb
            simp only [List.length_drop,List.length_cons] at this
            simp only [f,List.length_take]
            omega
          have hbody : f.body = start :: sequence :: id :: length :: body.take length.toNat := by
            rw [Frame.body,hlen,UInt8.ofNat_toNat,hstart _ _ hd]
          have hsum : body.take length.toNat ++ low :: high :: rest = body := by
            rw [← hb,List.take_append_drop]
          have hmax := length.toNat_lt
          refine ⟨buffer.takeWhile (· ≠ Frame.startByte),f,low,high,rest,kind,?_,hk,?_,rfl⟩
          · rw [List.append_assoc,List.append_assoc,hbody]
            simp only [List.cons_append,List.nil_append]
            rw [hsum,← hd,hsplit]
          · rw [hlen,Frame.maxData]
            omega
        · cases h
  · cases h

/-- A frame that was taken out of a stream: where it starts, the checksum that came with it and the
length of full segments that was in force. -/
structure Taken where
  position : Nat
  frame : Frame
  low : UInt8
  high : UInt8
  size : Nat

namespace Taken

def image (t : Taken) : Bytes :=
  t.frame.body ++ [t.low,t.high]

/-- Where the frame ends in the stream. -/
def stop (t : Taken) : Nat :=
  t.position + t.image.length

/-- The checksum is right. -/
def Valid (t : Taken) : Prop :=
  (Checksum.compute t.frame.body).toNat = Word.ofLittleEndian [t.low,t.high]

instance (t : Taken) : Decidable t.Valid :=
  inferInstanceAs (Decidable (_ = _))

def IsFull (t : Taken) : Prop :=
  0 < t.size ∧ t.frame.data.length = t.size

instance (t : Taken) : Decidable t.IsFull :=
  inferInstanceAs (Decidable (_ ∧ _))

/-- The frame as reassembly sees it. -/
def segment (t : Taken) : Option Segment :=
  if t.Valid then (Kind.ofWire? t.frame.kind).map fun kind => ⟨kind,t.frame.data,t.IsFull⟩ else none

/-- The bytes of the frame lie in the stream, and its type byte stands for a kind. -/
structure LiesIn (stream : Bytes) (t : Taken) : Prop where
  image_prefix : t.image <+: stream.drop t.position
  kind : (Kind.ofWire? t.frame.kind).isSome
  length_le : t.frame.data.length ≤ Frame.maxData

theorem liesIn_of_split {before behind : Bytes} {t : Taken} (hp : before.length = t.position)
    (hk : (Kind.ofWire? t.frame.kind).isSome) (hl : t.frame.data.length ≤ Frame.maxData) :
    t.LiesIn (before ++ t.image ++ behind) := by
  refine ⟨?_,hk,hl⟩
  rw [← hp,List.append_assoc,List.drop_left]
  exact List.prefix_append _ _

end Taken

/-- The frames lie one behind another between two places of a stream. -/
structure Between (start stop : Nat) (ts : List Taken) : Prop where
  ordered : ts.Pairwise fun a b => a.stop ≤ b.position
  bounds : ∀ t ∈ ts, start ≤ t.position ∧ t.stop ≤ stop

theorem between_nil (start stop : Nat) : Between start stop [] :=
  ⟨.nil,List.forall_mem_nil _⟩

theorem between_singleton {start : Nat} {t : Taken} (h : start ≤ t.position) :
    Between start t.stop [t] := by
  refine ⟨List.pairwise_singleton _ t,?_⟩
  intro u hu
  rw [List.mem_singleton.mp hu]
  exact ⟨h,Nat.le_refl _⟩

theorem Between.append {start middle stop : Nat} {ts us : List Taken} (ht : Between start middle ts)
    (hu : Between middle stop us) (hsm : start ≤ middle) (hms : middle ≤ stop) :
    Between start stop (ts ++ us) := by
  constructor
  · refine List.pairwise_append.mpr ⟨ht.ordered,hu.ordered,?_⟩
    intro t hmt u hmu
    exact (ht.bounds t hmt).2.trans (hu.bounds u hmu).1
  · intro t hm
    rcases List.mem_append.mp hm with hm | hm
    · have hb := ht.bounds t hm
      exact ⟨hb.1,hb.2.trans hms⟩
    · have hb := hu.bounds t hm
      exact ⟨hsm.trans hb.1,hb.2⟩

/-- What one call takes out of the stream, and what it then gives. -/
structure Round where
  taken : List Taken
  delivery : Option (Delivery Taken)

def Round.message (round : Round) : Option Message :=
  round.delivery.map (Assembly.message Taken.segment)

/-- The call takes frames out of what has arrived by then, and what it gives ends in the last of
them. -/
structure Round.Of (stream : Bytes) (size : Nat) (round : Round) : Prop where
  liesIn : ∀ t ∈ round.taken, t.LiesIn stream
  size_eq : ∀ t ∈ round.taken, t.size = size
  last : ∀ delivery, round.delivery = some delivery →
    round.taken.getLast? = delivery.members.getLast?

namespace Decoder
open Assembly

/-- A call and the length of full segments it is given. -/
structure Request where
  call : Call
  size : Nat

/-- What a call returns, and the decoder behind it. -/
def respond (d : Decoder) (request : Request) : Option Message × Decoder :=
  match request.call with
  | .feed bytes => d.feed bytes request.size
  | .next => d.next request.size

/-- What calls one after another return, and the decoder behind them. -/
def answers (d : Decoder) : List Request → List (Option Message) × Decoder
  | [] => ([],d)
  | request :: rest =>
    let (found,d) := d.respond request
    let (more,d) := answers d rest
    (found :: more,d)

theorem respond_eq (d : Decoder) (request : Request) :
    d.respond request = (d.push request.call.bytes).next request.size := by
  unfold respond
  cases request.call with
  | feed bytes => rfl
  | next => rw [Call.bytes,push_nil]

/-- The rounds of calls one after another, the first of them on a stream of which `stream` had arrived
before. -/
inductive Rounds : Bytes → List Request → List Round → Prop
  | nil (stream : Bytes) : Rounds stream [] []
  | cons {stream : Bytes} {request : Request} {requests : List Request} {round : Round}
      {rounds : List Round} (h : round.Of (stream ++ request.call.bytes) request.size)
      (hr : Rounds (stream ++ request.call.bytes) requests rounds) :
      Rounds stream (request :: requests) (round :: rounds)

variable {size : Nat} {d : Decoder} {held : List Taken}

/-- The frame is what one look takes out of the decoder, and reassembly goes on from there; `before` had
been looked at, and `skipped` now is too. -/
structure Looks (size : Nat) (d : Decoder) (held : List Taken) (before skipped : Bytes) (t : Taken) :
    Prop where
  size_eq : t.size = size
  liesIn : t.LiesIn (before ++ d.buffer)
  start_le : before.length ≤ t.position
  stop_eq : t.stop = (before ++ skipped).length
  buffer_eq : before ++ d.buffer = before ++ skipped ++ (d.step size).decoder.buffer
  messages_eq : (d.step size).messages =
    (assemble Taken.segment held [t]).1.map (message Taken.segment)
  holding : Holding Taken.segment (d.step size).decoder.pending (assemble Taken.segment held [t]).2

/-- The round is what a call does with the decoder. -/
structure Plays (size : Nat) (d : Decoder) (held : List Taken) (before skipped : Bytes) (round : Round) :
    Prop where
  of : round.Of (before ++ d.buffer) size
  between : Between before.length (before ++ skipped).length round.taken
  buffer_eq : before ++ d.buffer = before ++ skipped ++ (d.next size).2.buffer
  delivery_eq : (assemble Taken.segment held round.taken).1 = round.delivery.toList
  message_eq : (d.next size).1 = round.message
  holding : Holding Taken.segment (d.next size).2.pending (assemble Taken.segment held round.taken).2

variable {before skipped : Bytes} {t : Taken}

/-- One look that takes something out takes one frame out, which reassembly then takes in. -/
theorem exists_looks (size : Nat) (hh : Holding Taken.segment d.pending held) (before : Bytes)
    (hs : ∀ e, d.step size ≠ .idle e) : ∃ t skipped, Looks size d held before skipped t := by
  obtain ⟨noise,f,low,high,rest,kind,hb,hk,hl,hc⟩ :=
    Cut.exists_of_isWhole (isWhole_of_step_ne_idle hs)
  let t : Taken := ⟨before.length + noise.length,f,low,high,size⟩
  have hbuffer : before ++ d.buffer = before ++ noise ++ t.image ++ rest := by
    simp [hb,t,Taken.image]
  have hlies : t.LiesIn (before ++ d.buffer) := by
    rw [hbuffer]
    exact Taken.liesIn_of_split List.length_append (by simp [t,hk]) hl
  have hstop : t.stop = (before ++ (noise ++ t.image)).length := by
    simp only [Taken.stop,List.length_append,t]
    omega
  have hleft : (d.step size).decoder.buffer = rest := by
    rw [buffer_step,hc]
    split <;> rfl
  have hon : (d.step size).messages = (assemble Taken.segment held [t]).1.map (message Taken.segment) ∧
      Holding Taken.segment (d.step size).decoder.pending (assemble Taken.segment held [t]).2 := by
    by_cases hvalid : t.Valid
    · have hcut : Cut.ofBuffer d.buffer = .frame f kind rest := hc.trans (if_pos hvalid)
      have hv : t.segment = some ⟨kind,f.data,t.IsFull⟩ := by
        rw [Taken.segment,if_pos hvalid,hk,Option.map_some]
      have hlen : f.data.length ≤ maxReassembled := hl.trans (by decide)
      have hfull : (decide (0 < size) && decide (f.data.length = size)) = decide t.IsFull :=
        (Bool.decide_and _ _).symm
      have hstep : d.step size = accept ⟨rest,some f.sequence,d.pending⟩ kind f.data t.IsFull := by
        rw [step_of_frame hcut,receive,hfull]
      rw [hstep]
      exact accept_of_holding (d := ⟨rest,some f.sequence,d.pending⟩) hh hv hlen
    · have hcut : Cut.ofBuffer d.buffer = .corrupt rest := hc.trans (if_neg hvalid)
      have hv : t.segment = none := if_neg hvalid
      rw [step_of_corrupt hcut,assemble_damaged hv]
      exact ⟨rfl,hh⟩
  refine ⟨t,noise ++ t.image,rfl,hlies,Nat.le_add_right _ _,hstop,?_,hon.1,hon.2⟩
  rw [hbuffer,hleft]
  simp

theorem Looks.between (h : Looks size d held before skipped t) :
    Between before.length (before ++ skipped).length [t] :=
  h.stop_eq ▸ between_singleton h.start_le

/-- A call that finds no frame takes nothing out. -/
theorem exists_plays_of_idle (hh : Holding Taken.segment d.pending held) (before : Bytes) {e : Decoder}
    (hs : d.step size = .idle e) : ∃ skipped, Plays size d held before skipped ⟨[],none⟩ := by
  have hc := waiting_of_step_idle hs
  have he : e = { d with buffer := e.buffer } := by
    have hd : d.step size = .idle { d with buffer := e.buffer } := step_of_waiting hc
    rw [hs] at hd
    exact DecoderStep.idle.inj hd
  obtain ⟨skipped,hd⟩ := Cut.suffix_of_waiting hc
  have hnext : d.next size = (none,e) := next_of_idle hs
  refine ⟨skipped,⟨List.forall_mem_nil _,List.forall_mem_nil _,by simp⟩,between_nil _ _,?_,rfl,?_,?_⟩
  · rw [hnext,← hd,List.append_assoc]
  · rw [hnext]
    rfl
  · rw [hnext,he]
    exact hh

/-- The last look of a call that gives a message. -/
theorem Looks.exists_plays_of_message (h : Looks size d held before skipped t) {m : Message} {e : Decoder}
    (hs : d.step size = .message m e) : ∃ delivery, Plays size d held before skipped ⟨[t],some delivery⟩ := by
  have hmessages := h.messages_eq
  have hbuffer := h.buffer_eq
  have hholding := h.holding
  have hnext : d.next size = (some m,e) := next_of_message hs
  rw [hs] at hmessages hbuffer hholding
  rcases assemble_singleton_cases Taken.segment held t with hnone | ⟨delivery,hone,hlast⟩
  · rw [hnone] at hmessages
    cases hmessages
  · refine ⟨delivery,⟨?_,?_,?_⟩,h.between,?_,hone,?_,?_⟩
    · exact List.forall_mem_singleton.mpr h.liesIn
    · exact List.forall_mem_singleton.mpr h.size_eq
    · rintro _ ⟨⟩
      rw [hlast,List.getLast?_singleton]
    · rw [hnext]
      exact hbuffer
    · rw [hone] at hmessages
      rw [hnext]
      exact congrArg some (List.singleton_inj.mp hmessages)
    · rw [hnext]
      exact hholding

/-- A look that gives no message is the first of what the call goes on with. -/
theorem Looks.plays_cons (h : Looks size d held before skipped t) {e : Decoder}
    (hs : d.step size = .absorbed e) {more : Bytes} {round : Round}
    (hp : Plays size e (assemble Taken.segment held [t]).2 (before ++ skipped) more round) :
    Plays size d held before (skipped ++ more) ⟨t :: round.taken,round.delivery⟩ := by
  have hmessages := h.messages_eq
  have hbuffer := h.buffer_eq
  rw [hs] at hmessages hbuffer
  have hnone : (assemble Taken.segment held [t]).1 = [] := List.map_eq_nil_iff.mp hmessages.symm
  have hall : assemble Taken.segment held (t :: round.taken) =
      assemble Taken.segment (assemble Taken.segment held [t]).2 round.taken := by
    rw [← List.singleton_append,assemble_append,hnone,List.nil_append]
  have hnext : d.next size = e.next size := next_of_absorbed hs
  refine ⟨⟨?_,?_,?_⟩,?_,?_,?_,?_,?_⟩
  · refine List.forall_mem_cons.mpr ⟨h.liesIn,?_⟩
    rw [hbuffer]
    exact hp.of.liesIn
  · exact List.forall_mem_cons.mpr ⟨h.size_eq,hp.of.size_eq⟩
  · intro delivery hd
    have hl := hp.of.last delivery hd
    have hmem : delivery ∈ round.delivery.toList := Option.mem_toList.mpr hd
    rw [← hp.delivery_eq] at hmem
    cases htaken : round.taken with
    | nil =>
      rw [htaken] at hmem
      cases hmem
    | cons u rest => rw [← hl,htaken,List.getLast?_cons_cons]
  · have hbetween := hp.between
    rw [List.append_assoc] at hbetween
    exact h.between.append hbetween (by simp) (by simp)
  · rw [hbuffer,hnext,← List.append_assoc before skipped more]
    exact hp.buffer_eq
  · rw [hall]
    exact hp.delivery_eq
  · rw [hnext]
    exact hp.message_eq
  · rw [hall,hnext]
    exact hp.holding

/-- What a call takes out goes through reassembly and leads to what it returns. -/
theorem exists_plays (size : Nat) (hh : Holding Taken.segment d.pending held) (before : Bytes) :
    ∃ round skipped, Plays size d held before skipped round := by
  induction d using step_induction size generalizing held before with
  | idle d e hs =>
    obtain ⟨skipped,hp⟩ := exists_plays_of_idle hh before hs
    exact ⟨_,skipped,hp⟩
  | absorbed d e hs ih =>
    obtain ⟨t,skipped,h⟩ := exists_looks size hh before (by simp [hs])
    have hholding := h.holding
    rw [hs] at hholding
    obtain ⟨round,more,hp⟩ := ih hholding (before ++ skipped)
    exact ⟨_,_,h.plays_cons hs hp⟩
  | message d m e hs ih =>
    obtain ⟨t,skipped,h⟩ := exists_looks size hh before (by simp [hs])
    obtain ⟨delivery,hp⟩ := h.exists_plays_of_message hs
    exact ⟨_,skipped,hp⟩

/-- The same for calls one after another. -/
theorem exists_rounds_of_holding (requests : List Request) (hh : Holding Taken.segment d.pending held)
    (before : Bytes) :
    ∃ (rounds : List Round) (stop : Nat), Rounds (before ++ d.buffer) requests rounds ∧
      before.length ≤ stop ∧ Between before.length stop (rounds.flatMap Round.taken) ∧
      (answers d requests).1 = rounds.map Round.message ∧
      (assemble Taken.segment held (rounds.flatMap Round.taken)).1 = rounds.filterMap Round.delivery ∧
      Holding Taken.segment (answers d requests).2.pending
        (assemble Taken.segment held (rounds.flatMap Round.taken)).2 := by
  induction requests generalizing d held before with
  | nil => exact ⟨[],before.length,.nil _,Nat.le_refl _,between_nil _ _,rfl,rfl,hh⟩
  | cons request rest ih =>
    obtain ⟨round,skipped,hround,hbetween,hleft,htold,hmessage,hheld⟩ :=
      exists_plays (d := d.push request.call.bytes) request.size hh before
    have hstream : before ++ d.buffer ++ request.call.bytes =
        before ++ (d.push request.call.bytes).buffer := List.append_assoc _ _ _
    rw [← respond_eq] at hleft hmessage hheld
    rw [← hstream] at hround hleft
    obtain ⟨rounds,stop,hrounds,hle,hmore,hanswers,htells,hend⟩ := ih hheld (before ++ skipped)
    rw [← hleft] at hrounds
    have hall : assemble Taken.segment held (round.taken ++ rounds.flatMap Round.taken) = _ :=
      assemble_append held round.taken _
    refine ⟨round :: rounds,stop,.cons hround hrounds,?_,?_,?_,?_,?_⟩
    · rw [List.length_append] at hle
      omega
    · exact hbetween.append hmore (by simp) hle
    · simp only [answers,hmessage,hanswers,List.map_cons]
    · rw [List.flatMap_cons,hall,htold,htells]
      cases hd : round.delivery <;> simp [hd]
    · rw [List.flatMap_cons,hall]
      exact hend

end Decoder

end RemotePyMite
