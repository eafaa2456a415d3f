import RemotePyMite.Proofs.Frame.Passage
import RemotePyMite.Proofs.Frame.Segments

/-! # Messages come out of a stream as they went into it

Messages are cut into segments, the segments travel in frames with any numbers and with any
noise between them, and the stream arrives in chunks cut anywhere.  A decoder that counts a
frame of the same length as a segment gives back exactly these messages.
-/
namespace RemotePyMite

def Frame.part (f : Frame) : UInt8 × Bytes :=
  (f.kind,f.data)

/-- The bytes of frames one behind another, each with noise in front. -/
def Frame.encodeAll : List (Noise × Frame) → Except FrameError Bytes
  | [] => .ok []
  | (noise,f) :: rest => do
    let image ← f.encode
    let more ← encodeAll rest
    return noise.bytes ++ image ++ more

namespace Message
variable {size : Nat}

theorem exists_parts (size : Nat) (m : Message) (hm : m.kind ≠ .invalid ∧ m.kind ≠ .defective) :
    ∃ id data, m.toBytes = .ok data ∧ Kind.ofWire? id = some m.kind ∧
      ofKindOrDefective m.kind data = m ∧
      m.parts size = .ok ((data.segments size).map fun part => (id,part)) := by
  obtain ⟨id,data,hw,hb,hk,ho⟩ := m.exists_wire hm
  refine ⟨id,data,hb,hk,by rw [ofKindOrDefective,ho],?_⟩
  rw [parts,hw,hb]
  rfl

theorem kind_of_parts {m : Message} {ps : List (UInt8 × Bytes)} (h : m.parts size = .ok ps) :
    m.kind ≠ .invalid ∧ m.kind ≠ .defective := by
  constructor <;> intro hk <;> rw [parts,wireId,hk] at h <;> cases h

theorem forall₂_of_mapM_parts {messages : List Message} {parts : List (List (UInt8 × Bytes))}
    (h : messages.mapM (Message.parts size) = .ok parts) :
    List.Forall₂ (fun m ps => m.parts size = .ok ps) messages parts := by
  induction messages generalizing parts with
  | nil => cases h; exact .nil
  | cons m rest ih =>
    rw [List.mapM_cons] at h
    cases hm : m.parts size with
    | error e => rw [hm] at h; cases h
    | ok ps =>
      cases hr : rest.mapM (Message.parts size) with
      | error e => rw [hm,hr] at h; cases h
      | ok more =>
        rw [hm,hr] at h
        cases h
        exact .cons hm (ih hr)

theorem exists_mapM_parts (size : Nat) {messages : List Message}
    (hm : ∀ m ∈ messages, m.kind ≠ .invalid ∧ m.kind ≠ .defective) :
    ∃ parts, messages.mapM (Message.parts size) = .ok parts := by
  induction messages with
  | nil => exact ⟨[],rfl⟩
  | cons m rest ih =>
    obtain ⟨hm,hrest⟩ := List.forall_mem_cons.mp hm
    obtain ⟨id,data,-,-,-,hp⟩ := m.exists_parts size hm
    obtain ⟨more,hmore⟩ := ih hrest
    refine ⟨((data.segments size).map fun part => (id,part)) :: more,?_⟩
    rw [List.mapM_cons,hp,hmore]
    rfl

end Message

namespace Assembly
variable {α : Type} {size : Nat}

/-- A row of the segments of messages is put together to these messages. -/
theorem assemble_messages (view : α → Option Segment) (hsize : 0 < size) {part : α → UInt8 × Bytes}
    (hview : ∀ x, view x = (Kind.ofWire? (part x).1).map fun kind =>
      ⟨kind,(part x).2,0 < size && (part x).2.length = size⟩)
    {messages : List Message} {parts : List (List (UInt8 × Bytes))}
    (hm : ∀ m ∈ messages, m.kind ≠ .invalid ∧ m.kind ≠ .defective)
    (hlen : ∀ m ∈ messages, ∀ data, m.toBytes = .ok data → data.length ≤ maxReassembled)
    (hp : List.Forall₂ (fun m ps => m.parts size = .ok ps) messages parts)
    {xs : List α} (hx : xs.map part = parts.flatten) :
    ∃ groups, assemble view [] xs = (groups,[]) ∧ groups.map (message view) = messages := by
  induction hp generalizing xs with
  | nil =>
    rw [List.flatten_nil,List.map_eq_nil_iff] at hx
    exact ⟨[],by rw [hx,assemble],rfl⟩
  | @cons m ps rest more hps _ ih =>
    obtain ⟨hm,hrest⟩ := List.forall_mem_cons.mp hm
    obtain ⟨hl,hlrest⟩ := List.forall_mem_cons.mp hlen
    obtain ⟨ys,zs,rfl,hy,hz⟩ := List.map_eq_append_iff.mp hx
    obtain ⟨groups,hg,hmap⟩ := ih hrest hlrest hz
    obtain ⟨id,data,hb,hk,ho,hparts⟩ := m.exists_parts size hm
    have hseg : ys.map view = (segmentsOf size m.kind data).map some := by
      have hview' : view = (fun p => (Kind.ofWire? p.1).map fun kind =>
          ⟨kind,p.2,0 < size && p.2.length = size⟩) ∘ part := funext hview
      have he : ps = (data.segments size).map fun part => (id,part) :=
        Except.ok.inj (hps.symm.trans hparts)
      rw [hview',← List.map_map,hy,he]
      simp [segmentsOf,hk,Function.comp_def]
    refine ⟨.group m.kind ys :: groups,?_,?_⟩
    · rw [assemble_segments hsize hseg (hl data hb),hg]
    · rw [List.map_cons,hmap,message,payload_of_segmentsOf hseg,ho]

end Assembly

theorem Message.sendable_of_mem_parts {size : Nat} (hsize : 0 < size)
    (hmax : size ≤ Frame.maxData) {messages : List Message}
    {parts : List (List (UInt8 × Bytes))}
    (hm : ∀ m ∈ messages, m.kind ≠ .invalid ∧ m.kind ≠ .defective)
    (hp : List.Forall₂ (fun m ps => m.parts size = .ok ps) messages parts)
    {p : UInt8 × Bytes} (hmem : p ∈ parts.flatten) :
    (Kind.ofWire? p.1).isSome ∧ p.2.length ≤ Frame.maxData := by
  induction hp with
  | nil => simp at hmem
  | @cons m ps rest more hps _ ih =>
    obtain ⟨hm,hrest⟩ := List.forall_mem_cons.mp hm
    rw [List.flatten_cons] at hmem
    rcases List.mem_append.mp hmem with hmem | hmem
    · obtain ⟨id,data,-,hk,-,hparts⟩ := m.exists_parts size hm
      rw [Except.ok.inj (hps.symm.trans hparts)] at hmem
      obtain ⟨segment,hs,rfl⟩ := List.mem_map.mp hmem
      exact ⟨by rw [hk]; rfl,(Bytes.length_le_of_mem_segments hsize hs).trans hmax⟩
    · exact ih hrest hmem

theorem Frame.encodeAll_eq_wire {sent : List (Noise × Frame)}
    (hl : ∀ p ∈ sent, p.2.data.length ≤ maxData) :
    encodeAll sent = .ok (Passage.wire (sent.map fun p => ⟨p.1,p.2,none⟩)) := by
  induction sent with
  | nil => rfl
  | cons p rest ih =>
    obtain ⟨hp,hrest⟩ := List.forall_mem_cons.mp hl
    rw [encodeAll,encode,if_pos hp,ih hrest]
    simp [Passage.wire,Passage.image,bind,Except.bind,pure,Except.pure]

/-- Any messages of kinds that travel, with data that is not too long, can be encoded in
frames that hold a segment each.  From these frames, numbered in any way, with noise between
them and in any chunks, a fresh decoder takes out these messages in order and no others. -/
theorem Decoder.feedAll_messages {size : Nat} (hsize : 1 ≤ size) (hmax : size ≤ 255)
    {messages : List Message} (hm : ∀ m ∈ messages, m.kind ≠ .invalid ∧ m.kind ≠ .defective)
    (hlen : ∀ m ∈ messages, ∀ data, m.toBytes = .ok data → data.length ≤ 65535) :
    ∃ parts, messages.mapM (Message.parts size) = .ok parts ∧
      ∀ sent : List (Noise × Frame), sent.map (fun p => p.2.part) = parts.flatten →
        ∃ wire, Frame.encodeAll sent = .ok wire ∧
          ∀ (tail : Noise) (chunks : List Bytes), chunks.flatten = wire ++ tail.bytes →
            let fed := empty.feedAll size chunks
            fed.1 = messages ∧ fed.2.buffer = [] ∧ fed.2.isReassembling = false ∧
              fed.2.lastSequence = sent.getLast?.map fun p => p.2.sequence := by
  obtain ⟨parts,hparts⟩ := Message.exists_mapM_parts size hm
  refine ⟨parts,hparts,?_⟩
  intro sent hsent
  have hp := Message.forall₂_of_mapM_parts hparts
  let passage (p : Noise × Frame) : Passage := ⟨p.1,p.2,none⟩
  have hsend : ∀ p ∈ sent, (passage p).Sendable := by
    intro p hmem
    have hpart : p.2.part ∈ parts.flatten := hsent ▸ List.mem_map_of_mem hmem
    exact Message.sendable_of_mem_parts hsize hmax hm hp hpart
  refine ⟨_,Frame.encodeAll_eq_wire fun p hmem => (hsend p hmem).2,?_⟩
  intro tail chunks hc fed
  obtain ⟨hfed,hbuf,hhold,hseq⟩ := Passage.feedAll_wire size sent hsend tail hc
  obtain ⟨groups,hg,hmap⟩ := Assembly.assemble_messages
    (fun p => (passage p).segment size) hsize (fun p => rfl) hm hlen hp hsent
  rw [hg] at hfed hhold
  have hpending : fed.2.pending = none := by
    cases hpend : fed.2.pending with
    | none => rfl
    | some r => rw [hpend] at hhold; exact absurd rfl hhold.1
  refine ⟨hfed.trans hmap,hbuf,by rw [isReassembling,hpending]; rfl,hseq.trans ?_⟩
  simp [Passage.lastSequence,List.filter_map,Function.comp_def,passage]

/-- An acknowledgment behind a stray byte, and data that fills its segment, which takes an
empty frame to end it; the stream is cut inside a header. -/
theorem Decoder.feedAll_messages_full_segment :
    let messages : List Message := [.ack,.memList ⟨[97,98,99,100]⟩]
    let sent : List (Noise × Frame) :=
      [(⟨[0],by decide⟩,⟨9,1,[]⟩),(⟨[],by decide⟩,⟨9,7,[97,98,99,100]⟩),
        (⟨[],by decide⟩,⟨0,7,[]⟩)]
    (∀ m ∈ messages, m.kind ≠ .invalid ∧ m.kind ≠ .defective) ∧
      (∀ m ∈ messages, ∀ data, m.toBytes = .ok data → data.length ≤ 65535) ∧
      ∃ wire, Frame.encodeAll sent = .ok wire ∧
        (empty.feedAll 4 [wire.take 9,wire.drop 9]).1 = messages := by
  intro messages sent
  have hkind : ∀ m ∈ messages, m.kind ≠ .invalid ∧ m.kind ≠ .defective := by decide
  have hlen : ∀ m ∈ messages, ∀ data, m.toBytes = .ok data → data.length ≤ 65535 := by
    simp only [messages,List.forall_mem_cons,List.not_mem_nil,Message.toBytes]
    grind
  obtain ⟨parts,hp,h⟩ := feedAll_messages (show 1 ≤ 4 by decide) (by decide) hkind hlen
  have hparts : messages.mapM (Message.parts 4) =
      .ok [[(1,[])],[(7,[97,98,99,100]),(7,[])]] := by cbv
  rw [← Except.ok.inj (hparts.symm.trans hp)] at h
  obtain ⟨wire,hw,hfed⟩ := h sent rfl
  refine ⟨hkind,hlen,wire,hw,(hfed ⟨[],by decide⟩ _ ?_).1⟩
  simp

end RemotePyMite
