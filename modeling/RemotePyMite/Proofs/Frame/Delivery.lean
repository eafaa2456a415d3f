import RemotePyMite.Proofs.Frame.RoundTrip

/-! # The next message of a stream

A decoder that holds nothing takes a message out of the frames that carry it and leaves what is
behind them (`next_frames`).  This needs to be known of one message only, so the length of full
segments may be another for the next.
-/
namespace RemotePyMite
variable {size : Nat} {kind : Kind} {d : Decoder}

namespace Decoder

theorem data_joined_of_pending {r : Reassembly} (hr : d.pending = some r) (hk : r.kind = kind)
    (data : Bytes) : (d.joined kind data).data = r.data ++ data := by
  rw [joined,hr]
  dsimp only
  rw [if_pos hk,Reassembly.data_push]

/-- One look at a buffer with a whole frame in front, by a decoder that holds `held`. -/
theorem step_frame (size : Nat) {held rest : Bytes} {f : Frame}
    (hk : Kind.ofWire? f.kind = some kind) (hmax : f.data.length ≤ Frame.maxData)
    (hb : d.buffer = f.bytes ++ rest)
    (hheld : (d.joined kind f.data).data = held ++ f.data)
    (hlen : (held ++ f.data).length ≤ maxReassembled) :
    d.step size =
      if 0 < size ∧ f.data.length = size then
        .absorbed ⟨rest,some f.sequence,some (d.joined kind f.data)⟩
      else .message (.ofKindOrDefective kind (held ++ f.data)) ⟨rest,some f.sequence,none⟩ := by
  have hs : Passage.Sendable ⟨.silence,f,none⟩ := ⟨by rw [hk]; rfl,hmax⟩
  obtain ⟨kind',hk',hc⟩ := Passage.ofBuffer_wire ⟨.silence,f,none⟩ hs rest
  cases hk'.symm.trans hk
  have hcut : Cut.ofBuffer d.buffer = .frame f kind rest := by
    rw [hb]
    exact hc
  let e : Decoder := { d with buffer := rest, lastSequence := some f.sequence }
  have hjoined : e.joined kind f.data = d.joined kind f.data := rfl
  have hsize : ¬maxReassembled < (d.joined kind f.data).size := by
    rw [← Reassembly.length_data,hheld]
    exact Nat.not_lt.mpr hlen
  have hdata : f.data.length ≤ maxReassembled := Nat.le_trans hmax (by decide)
  rw [step_of_frame hcut]
  refine (accept_eq_of_joined e kind _ hdata).trans ?_
  rw [hjoined,if_neg hsize,hheld]
  simp only [Bool.and_eq_true,decide_eq_true_eq]
  rfl

/-- The frames of data in segments, taken in by a decoder that already holds `held`. -/
theorem next_segments (hsize : 0 < size) (hmax : size ≤ Frame.maxData) {id : UInt8}
    (hk : Kind.ofWire? id = some kind) {data : Bytes} {held rest : Bytes} {frames : List Frame}
    (hf : frames.map Frame.part = (data.segments size).map fun part => (id,part))
    (hb : d.buffer = frames.flatMap Frame.bytes ++ rest)
    (hheld : ∀ more, (d.joined kind more).data = held ++ more)
    (hlen : (held ++ data).length ≤ maxReassembled) :
    ∃ n, d.next size = (some (.ofKindOrDefective kind (held ++ data)),⟨rest,n,none⟩) := by
  fun_induction Bytes.segments size data generalizing d held frames with
  | case1 data h ih =>
    obtain ⟨f,more,rfl,hfirst,hmore⟩ := List.map_eq_cons_iff.mp hf
    obtain ⟨hkind,hdata⟩ := Prod.mk.inj hfirst
    have hfull : f.data.length = size := by
      rw [hdata,List.length_take]
      omega
    have hlen' : (held ++ f.data).length ≤ maxReassembled := by
      simp only [List.length_append,hfull] at hlen ⊢
      omega
    rw [List.flatMap_cons,List.append_assoc] at hb
    have hs := step_frame size (hkind ▸ hk) (by omega) hb (hheld f.data) hlen'
    rw [if_pos ⟨hsize,hfull⟩] at hs
    have hjoin : held ++ f.data ++ data.drop size = held ++ data := by
      rw [List.append_assoc,hdata,List.take_append_drop]
    rw [next_of_absorbed hs,← hjoin]
    refine ih hmore rfl ?_ (by rwa [hjoin])
    intro more
    rw [data_joined_of_pending rfl (kind_joined d kind f.data),hheld]
  | case2 data h =>
    obtain ⟨f,more,rfl,hfirst,hmore⟩ := List.map_eq_cons_iff.mp hf
    obtain ⟨hkind,rfl⟩ := Prod.mk.inj hfirst
    cases List.map_eq_nil_iff.mp hmore
    rw [List.flatMap_singleton] at hb
    have hshort : f.data.length < size := by omega
    have hs := step_frame size (hkind ▸ hk) (by omega) hb (hheld f.data) hlen
    rw [if_neg (by omega)] at hs
    exact ⟨_,next_of_message hs⟩

end Decoder

/-- The frames carry the message in segments of `size` bytes, under any numbers. -/
def Message.CarriedBy (size : Nat) (m : Message) (frames : List Frame) : Prop :=
  m.parts size = .ok (frames.map Frame.part)

namespace Message.CarriedBy
variable {m : Message} {frames : List Frame}

theorem sendable (h : m.CarriedBy size frames) (hsize : 0 < size) (hmax : size ≤ Frame.maxData) :
    ∀ f ∈ frames, Passage.Sendable ⟨.silence,f,none⟩ := by
  intro f hf
  have hall : List.Forall₂ (fun m ps => m.parts size = .ok ps) [m] [frames.map Frame.part] :=
    .cons h .nil
  refine Message.sendable_of_mem_parts hsize hmax ?_ hall (p := f.part) ?_
  · simpa using Message.kind_of_parts h
  · simpa using List.mem_map_of_mem hf

theorem ne_nil (h : m.CarriedBy size frames) : frames ≠ [] := by
  obtain ⟨id,data,-,-,-,hp⟩ := m.exists_parts size (Message.kind_of_parts h)
  have he := Except.ok.inj (h.symm.trans hp)
  rintro rfl
  have hnil : data.segments size = [] := List.map_eq_nil_iff.mp he.symm
  rw [Bytes.segments] at hnil
  split at hnil <;> cases hnil

/-- The next message of a stream is the one whose frames come first. -/
theorem next (h : m.CarriedBy size frames) (hsize : 0 < size) (hmax : size ≤ Frame.maxData)
    (hlen : ∀ data, m.toBytes = .ok data → data.length ≤ maxReassembled) {rest : Bytes}
    (hb : d.buffer = frames.flatMap Frame.bytes ++ rest) (hd : d.pending = none) :
    ∃ n, d.next size = (some m,⟨rest,n,none⟩) := by
  obtain ⟨id,data,hdata,hk,hm,hp⟩ := m.exists_parts size (Message.kind_of_parts h)
  have hheld : ∀ more, (d.joined m.kind more).data = [] ++ more := by
    intro more
    rw [Decoder.joined,hd]
    exact Reassembly.data_start m.kind more
  rw [← hm]
  exact Decoder.next_segments hsize hmax hk (Except.ok.inj (h.symm.trans hp)) hb hheld (hlen data hdata)

/-- Data that is shorter than two segment sizes travels alike under both. -/
theorem of_short {other : Nat} (h : m.CarriedBy size frames) {data : Bytes}
    (hdata : m.toBytes = .ok data) (hs : data.length < size) (ho : data.length < other) :
    m.CarriedBy other frames := by
  have hshort : ∀ n, data.length < n → data.segments n = [data] := by
    intro n hn
    rw [Bytes.segments,if_neg (by omega)]
  unfold CarriedBy Message.parts at h ⊢
  rw [hdata] at h ⊢
  cases hid : m.wireId with
  | error e => rw [hid] at h; cases h
  | ok id =>
    rw [hid] at h
    rw [← h]
    simp [bind,Except.bind,pure,Except.pure,hshort _ hs,hshort _ ho]

end Message.CarriedBy

end RemotePyMite
