import RemotePyMite.Proofs.Frame.RoundTrip
import RemotePyMite.Proofs.Frame.Rows

/-! # Blocks that are put together again

The segments of a block are those of one message, its payload (`data_segments`), so a decoder puts
them together as it does with any message.  The length of the data is limited where a block is cut,
the length of the payload where it is put together, and the payload is three bytes longer: blocks of
the last three lengths are cut but not put together (`feedAll_block_iff`).
-/
namespace RemotePyMite

namespace Block
variable {space : UInt8} {data : Bytes} {size : Nat} {blocks : List Block}

/-- What travels of data for a memory space: the data with the number of the space in front and, if
that takes more than one segment, with its length in front of both. -/
def payload (space : UInt8) (data : Bytes) (size : Nat) : Bytes :=
  if data.length + 1 < size then space :: data
  else Word.littleEndian 2 data.length ++ space :: data

theorem data_tail (hsize : 0 < size) (rest : Bytes) :
    (tail size rest).map Block.data = rest.segments size := by
  rw [Bytes.segments_eq_pieces hsize,tail,List.map_append,List.map_map]
  congr 1
  · exact List.map_id _
  · split <;> rfl

theorem size_pos (h : segments space data size = .ok blocks) : 0 < size := by
  unfold segments at h
  split at h
  · cases h
  · omega

/-- The segments of a block are those of its payload. -/
theorem data_segments (h : segments space data size = .ok blocks) :
    blocks.map Block.data = (payload space data size).segments size := by
  unfold segments at h
  split at h
  · cases h
  · next hsize =>
    split at h
    · next hshort =>
      cases h
      rw [payload,if_pos hshort,Bytes.segments_of_lt (by simpa using hshort)]
      rfl
    · next hlong =>
      split at h
      · cases h
      · cases h
        obtain ⟨n,rfl⟩ : ∃ n, size = n + 3 := ⟨size - 3,by omega⟩
        have hfull : n + 3 ≤ (Word.littleEndian 2 data.length ++ space :: data).length := by
          simp
          omega
        rw [List.map_cons,data_tail (by omega),payload,if_neg hlong,
          Bytes.segments_of_le (by omega) hfull]
        simp [Word.littleEndian]

/-- The segments of a block are the parts of one message. -/
theorem parts_payload (h : segments space data size = .ok blocks) :
    (Message.memAddBlock ⟨payload space data size⟩).parts size =
      .ok (blocks.map fun block => (8,block.data)) := by
  have hparts : (Message.memAddBlock ⟨payload space data size⟩).parts size =
      .ok (((payload space data size).segments size).map fun part => (8,part)) := rfl
  rw [hparts,← data_segments h,List.map_map]
  rfl

theorem length_payload_le_iff (hmax : size ≤ Frame.maxData) :
    (payload space data size).length ≤ maxReassembled ↔ data.length ≤ 65532 := by
  simp only [Frame.maxData] at hmax
  unfold payload maxReassembled
  split
  · simp only [List.length_cons]
    omega
  · simp only [List.length_append,Word.length_littleEndian,List.length_cons]
    omega

end Block

theorem Message.data_of_ofKindOrDefective {kind : Kind} {bytes : Bytes} {block : Block}
    (h : ofKindOrDefective kind bytes = .memAddBlock block) : bytes = block.data := by
  unfold ofKindOrDefective at h
  cases kind with
  | memAddBlock =>
    cases h
    rfl
  | sync =>
    simp only [ofKind] at h
    cases hp : SyncParameters.ofBytes bytes <;> rw [hp] at h <;> cases h
  | _ => cases h

namespace Decoder
open Assembly
variable {space : UInt8} {data : Bytes} {size : Nat} {blocks : List Block} {sent : List (Noise × Frame)}

/-- The frames hold the segments of a block, in order and under any numbers. -/
def Framed (blocks : List Block) (sent : List (Noise × Frame)) : Prop :=
  sent.map (fun p => p.2.part) = blocks.map fun block => (8,block.data)

theorem sendable_of_framed (h : Block.segments space data size = .ok blocks)
    (hmax : size ≤ Frame.maxData) (hf : Framed blocks sent) :
    ∀ p ∈ sent, Passage.Sendable ⟨p.1,p.2,none⟩ := by
  intro p hp
  have hmem : p.2.part ∈ [blocks.map fun block => ((8 : UInt8),block.data)].flatten := by
    rw [List.flatten_singleton,← hf]
    exact List.mem_map_of_mem hp
  refine Message.sendable_of_mem_parts (Block.size_pos h) hmax ?_
    (.cons (Block.parts_payload h) .nil) hmem
  simp [Message.kind]

/-- Data that is put together is never longer than the longest that is kept. -/
theorem length_le_of_mem_feedAll {chunks : List Bytes} {block : Block}
    (hs : ∀ p ∈ sent, Passage.Sendable ⟨p.1,p.2,none⟩) {tail : Noise}
    (hc : chunks.flatten = Passage.wire (sent.map fun p => ⟨p.1,p.2,none⟩) ++ tail.bytes)
    (hm : .memAddBlock block ∈ (empty.feedAll size chunks).1) : block.data.length ≤ maxReassembled := by
  obtain ⟨hfed,-⟩ := Passage.feedAll_wire size sent hs tail hc
  rw [hfed] at hm
  obtain ⟨delivery,hd,hmsg⟩ := List.mem_map.mp hm
  cases delivery with
  | damaged x => cases hmsg
  | group kind group =>
    have hl := length_payload_of_group hd
    rwa [Message.data_of_ofKindOrDefective hmsg] at hl

/-- The segments of a block whose payload is not too long are put together. -/
theorem feedAll_framed (h : Block.segments space data size = .ok blocks) (hmax : size ≤ Frame.maxData)
    (hf : Framed blocks sent) (hlen : (Block.payload space data size).length ≤ maxReassembled)
    {tail : Noise} {chunks : List Bytes}
    (hc : chunks.flatten = Passage.wire (sent.map fun p => ⟨p.1,p.2,none⟩) ++ tail.bytes) :
    let fed := empty.feedAll size chunks
    fed.1 = [.memAddBlock ⟨Block.payload space data size⟩] ∧ fed.2.buffer = [] ∧
      fed.2.isReassembling = false := by
  intro fed
  let passage (p : Noise × Frame) : Passage := ⟨p.1,p.2,none⟩
  obtain ⟨hfed,hbuf,hhold,-⟩ := Passage.feedAll_wire size sent (sendable_of_framed h hmax hf) tail hc
  obtain ⟨groups,hgroups,hmap⟩ := assemble_messages (fun p => (passage p).segment size)
    (Block.size_pos h) (fun p => rfl) (by simp [Message.kind])
    (by simpa [Message.toBytes] using hlen) (.cons (Block.parts_payload h) .nil)
    (hf.trans List.flatten_singleton.symm)
  rw [hgroups] at hfed hhold
  have hpending : fed.2.pending = none := by
    cases hp : fed.2.pending with
    | none => rfl
    | some r =>
      rw [hp] at hhold
      exact absurd rfl hhold.1
  exact ⟨hfed.trans hmap,hbuf,by rw [isReassembling,hpending]; rfl⟩

/-- The segments of a block travel in frames of its kind, under any numbers, with any noise between
them and in any chunks.  A fresh decoder puts them together to one message with the whole block,
and is left with nothing, exactly if the block has at most 65532 bytes: with its header of three
bytes a longer one is more than a decoder keeps. -/
theorem feedAll_block_iff (h : Block.segments space data size = .ok blocks) (hmax : size ≤ 249)
    (hf : Framed blocks sent) :
    ∃ wire, Frame.encodeAll sent = .ok wire ∧
      ∀ (tail : Noise) (chunks : List Bytes), chunks.flatten = wire ++ tail.bytes →
        let fed := empty.feedAll size chunks
        (fed.1 = [.memAddBlock ⟨Block.payload space data size⟩] ∧ fed.2.buffer = [] ∧
          fed.2.isReassembling = false) ↔ data.length ≤ 65532 := by
  have hmax : size ≤ Frame.maxData := hmax.trans (by decide)
  have hs := sendable_of_framed h hmax hf
  refine ⟨_,Frame.encodeAll_eq_wire fun p hp => (hs p hp).2,?_⟩
  intro tail chunks hc fed
  rw [← Block.length_payload_le_iff hmax]
  constructor
  · rintro ⟨hfed,-⟩
    have hmem : .memAddBlock ⟨Block.payload space data size⟩ ∈ fed.1 := by
      rw [hfed]
      exact List.mem_singleton_self _
    exact length_le_of_mem_feedAll hs hc hmem
  · exact fun hlen => feedAll_framed h hmax hf hlen hc


/-- A block that ends with a full segment, so that an empty frame follows, under numbers that pass
from 255 to zero and with a stray byte in between. -/
theorem feedAll_block_iff_full_segment :
    let data : Bytes := [97,98,99,100,101]
    let blocks : List Block := [⟨[5,0,3,97]⟩,⟨[98,99,100,101]⟩,⟨[]⟩]
    let sent : List (Noise × Frame) := [(.silence,⟨254,8,[5,0,3,97]⟩),
      (⟨[0],by decide⟩,⟨255,8,[98,99,100,101]⟩),(.silence,⟨0,8,[]⟩)]
    Block.segments 3 data 4 = .ok blocks ∧ Framed blocks sent ∧
      ∃ wire, Frame.encodeAll sent = .ok wire ∧
        (empty.feedAll 4 [wire.take 9,wire.drop 9]).1 = [.memAddBlock ⟨[5,0,3] ++ data⟩] := by
  intro data blocks sent
  have hseg : Block.segments 3 data 4 = .ok blocks := by
    simp [Block.segments,Block.tail,maxBlockLength,Bytes.pieces,Word.littleEndian,data,blocks]
  have hframed : Framed blocks sent := rfl
  obtain ⟨wire,hwire,hfed⟩ := feedAll_block_iff hseg (by decide) hframed
  have hpayload : Block.payload 3 data 4 = [5,0,3] ++ data := by
    simp [Block.payload,Word.littleEndian,data]
  refine ⟨hseg,hframed,wire,hwire,?_⟩
  rw [← hpayload]
  exact ((hfed .silence [wire.take 9,wire.drop 9] (by simp [Noise.silence])).mpr (by decide)).1

/-- A block of 65533 bytes is cut, but never put together again. -/
theorem feedAll_block_too_long :
    let data : Bytes := List.replicate 65533 97
    ∃ blocks, Block.segments 3 data 249 = .ok blocks ∧
      let sent : List (Noise × Frame) := blocks.map fun block => (.silence,⟨0,8,block.data⟩)
      ∃ wire, Frame.encodeAll sent = .ok wire ∧
        .memAddBlock ⟨[0xFD,0xFF,3] ++ data⟩ ∉ (empty.feedAll 249 [wire]).1 := by
  intro data
  have hlen : data.length = 65533 := List.length_replicate
  obtain ⟨blocks,hseg⟩ : ∃ blocks, Block.segments 3 data 249 = .ok blocks := by
    rw [Block.segments,hlen]
    exact ⟨_,rfl⟩
  refine ⟨blocks,hseg,?_⟩
  intro sent
  have hframed : Framed blocks sent := by
    simp [Framed,sent,Frame.part]
  have hs := sendable_of_framed hseg (by decide) hframed
  refine ⟨_,Frame.encodeAll_eq_wire fun p hp => (hs p hp).2,fun hmem => ?_⟩
  let tail : Noise := .silence
  have hl := length_le_of_mem_feedAll hs (by simp [tail,Noise.silence] : _ = _ ++ tail.bytes) hmem
  simp only [List.length_append,hlen] at hl
  exact absurd hl (by decide)

end Decoder

end RemotePyMite
