import RemotePyMite.Proofs.Frame.Assembly

/-! # Frames on their way through a link

A link may put noise in front of a frame and may damage the frame, but leaves its start byte,
its type and its length alone.  What a decoder then delivers is what `assemble` says about the
row of frames (`drain_wire`), and the stream is clean whatever the damage (`clean_wire`).
-/
namespace RemotePyMite

/-- Bytes between frames; none of them starts a frame. -/
structure Noise where
  bytes : Bytes
  quiet : Frame.startByte ∉ bytes

/-- The bytes that arrive of a damaged frame: as many as were sent, with the same start byte,
type and length, and with a checksum that is wrong. -/
structure Damage (f : Frame) where
  bytes : Bytes
  length_eq : bytes.length = f.bytes.length
  start_eq : bytes[0]? = f.bytes[0]?
  kind_eq : bytes[2]? = f.bytes[2]?
  size_eq : bytes[3]? = f.bytes[3]?
  fails : Word.ofLittleEndian (bytes.drop (bytes.length - 2)) ≠
    (Checksum.compute (bytes.take (bytes.length - 2))).toNat

/-- A damaged frame is the body of some other frame with a wrong checksum behind it. -/
theorem Damage.exists_body {f : Frame} (damage : Damage f) :
    ∃ g : Frame, ∃ low high, damage.bytes = g.body ++ [low,high] ∧ g.kind = f.kind ∧
      g.data.length = f.data.length ∧
      (Checksum.compute g.body).toNat ≠ Word.ofLittleEndian [low,high] := by
  obtain ⟨bytes,hlength,hstart,hkind,hsize,hfails⟩ := damage
  rw [Frame.length_bytes] at hlength
  match bytes, hlength with
  | start :: sequence :: kind :: size :: rest, hlength =>
    simp only [Frame.bytes,Frame.body,List.cons_append,List.getElem?_cons_zero,
      List.getElem?_cons_succ,Option.some.injEq] at hstart hkind hsize
    simp only [List.length_cons,Frame.overhead] at hlength
    have htwo : (rest.drop f.data.length).length = 2 := by
      rw [List.length_drop]
      omega
    obtain ⟨low,high,hd⟩ := List.length_eq_two.mp htwo
    have hrest : rest = rest.take f.data.length ++ [low,high] := by
      rw [← hd,List.take_append_drop]
    have hdata : (rest.take f.data.length).length = f.data.length := by
      rw [List.length_take]
      omega
    let g : Frame := ⟨sequence,kind,rest.take f.data.length⟩
    have hbytes : start :: sequence :: kind :: size :: rest = g.body ++ [low,high] := by
      rw [hrest]
      simp [g,Frame.body,hstart,hsize,hdata]
    refine ⟨g,low,high,hbytes,hkind,hdata,?_⟩
    rw [hbytes] at hfails
    have hl : (g.body ++ [low,high]).length - 2 = g.body.length := by simp
    rw [hl,List.drop_left,List.take_left] at hfails
    exact fun h => hfails h.symm

def Noise.silence : Noise := ⟨[],by simp⟩

theorem Checksum.ofLittleEndian_succ_ne (c : UInt16) :
    Word.ofLittleEndian [UInt8.ofNat (c.toNat + 1),UInt8.ofNat (c.toNat / 256)] ≠ c.toNat := by
  have hc := c.toNat_lt
  simp only [Word.ofLittleEndian,UInt8.toNat_ofNat']
  omega

theorem Frame.length_body_append (f : Frame) (low high : UInt8) :
    (f.body ++ [low,high]).length = f.bytes.length := by
  simp [bytes,Word.littleEndian]

theorem Frame.ends_body_append (f : Frame) (low high : UInt8) :
    (f.body ++ [low,high]).drop ((f.body ++ [low,high]).length - 2) = [low,high] ∧
      (f.body ++ [low,high]).take ((f.body ++ [low,high]).length - 2) = f.body := by
  have hl : (f.body ++ [low,high]).length - 2 = f.body.length := by simp
  rw [hl]
  exact ⟨List.drop_left,List.take_left⟩

/-- What any frame can suffer: the low byte of its checksum goes up by one. -/
def Damage.checksum (f : Frame) : Damage f where
  bytes := f.body ++ [UInt8.ofNat ((Checksum.compute f.body).toNat + 1),
    UInt8.ofNat ((Checksum.compute f.body).toNat / 256)]
  length_eq := f.length_body_append _ _
  start_eq := rfl
  kind_eq := rfl
  size_eq := rfl
  fails := by
    obtain ⟨hdrop,htake⟩ := f.ends_body_append (UInt8.ofNat ((Checksum.compute f.body).toNat + 1))
      (UInt8.ofNat ((Checksum.compute f.body).toNat / 256))
    rw [hdrop,htake]
    exact Checksum.ofLittleEndian_succ_ne _

structure Passage where
  noise : Noise
  frame : Frame
  damage : Option (Damage frame)

namespace Passage

def image (p : Passage) : Bytes :=
  match p.damage with
  | none => p.frame.bytes
  | some damage => damage.bytes

def wire (ps : List Passage) : Bytes :=
  ps.flatMap fun p => p.noise.bytes ++ p.image

/-- A frame that can be on its way at all. -/
def Sendable (p : Passage) : Prop :=
  (Kind.ofWire? p.frame.kind).isSome ∧ p.frame.data.length ≤ Frame.maxData

/-- The frame as reassembly sees it, for segments of `size` bytes. -/
def segment (size : Nat) (p : Passage) : Option Segment :=
  match p.damage with
  | none => (Kind.ofWire? p.frame.kind).map fun kind =>
      ⟨kind,p.frame.data,0 < size && p.frame.data.length = size⟩
  | some _ => none

variable {α : Type} {passage : α → Passage}

theorem segment_ne_none_iff (size : Nat) {p : Passage} (hp : p.Sendable) :
    p.segment size ≠ none ↔ p.damage = none := by
  obtain ⟨kind,hk⟩ := Option.isSome_iff_exists.mp hp.1
  cases hd : p.damage <;> simp [segment,hd,hk]

theorem image_eq_body (p : Passage) :
    ∃ g : Frame, ∃ low high, p.image = g.body ++ [low,high] ∧ g.kind = p.frame.kind ∧
      g.data.length = p.frame.data.length ∧
      (p.damage = none → g = p.frame) ∧
      ((Checksum.compute g.body).toNat = Word.ofLittleEndian [low,high] ↔ p.damage = none) := by
  cases hd : p.damage with
  | none =>
    let crc := (Checksum.compute p.frame.body).toNat
    refine ⟨p.frame,UInt8.ofNat crc,UInt8.ofNat (crc / 256),?_,rfl,rfl,fun _ => rfl,?_⟩
    · simp only [image,hd,Frame.bytes,Word.littleEndian,crc]
    · have h : Word.ofLittleEndian [UInt8.ofNat crc,UInt8.ofNat (crc / 256)] = crc :=
        Word.ofLittleEndian_littleEndian_toNat (Checksum.compute p.frame.body)
      rw [h]
      simp [crc]
  | some damage =>
    obtain ⟨g,low,high,hb,hk,hl,hf⟩ := damage.exists_body
    refine ⟨g,low,high,?_,hk,hl,by simp,by simp [hf]⟩
    simp [image,hd,hb]

/-- The cut of a stream that starts with a frame on its way. -/
theorem ofBuffer_wire (p : Passage) (hp : p.Sendable) (rest : Bytes) :
    ∃ kind, Kind.ofWire? p.frame.kind = some kind ∧
      Cut.ofBuffer (p.noise.bytes ++ p.image ++ rest) =
        match p.damage with
        | none => .frame p.frame kind rest
        | some _ => .corrupt rest := by
  obtain ⟨hk,hlen⟩ := hp
  obtain ⟨kind,hk⟩ := Option.isSome_iff_exists.mp hk
  obtain ⟨g,low,high,hi,hgk,hgl,hg,hc⟩ := image_eq_body p
  have hcut := Cut.ofBuffer_body p.noise.quiet (hgk ▸ hk) (hgl ▸ hlen) low high rest
  refine ⟨kind,hk,?_⟩
  rw [hi]
  simp only [List.append_assoc,List.cons_append,List.nil_append] at hcut ⊢
  rw [hcut]
  cases hd : p.damage with
  | none => rw [if_pos (hc.mpr hd),hg hd]
  | some damage => rw [if_neg (by rw [hc,hd]; simp)]

/-- Nothing that happens to frames on their way makes a decoder refuse its buffer. -/
theorem clean_wire {ps : List Passage} (hps : ∀ p ∈ ps, p.Sendable) (tail : Noise) :
    Cut.Clean (wire ps ++ tail.bytes) := by
  induction ps with
  | nil =>
    refine .intro (Cut.not_refused_of_quiet tail.quiet) fun h => ?_
    rw [wire,List.flatMap_nil,List.nil_append,Cut.ofBuffer_of_quiet tail.quiet] at h
    cases h
  | cons p rest ih =>
    obtain ⟨hp,hrest⟩ := List.forall_mem_cons.mp hps
    obtain ⟨kind,-,hc⟩ := ofBuffer_wire p hp (wire rest ++ tail.bytes)
    have hw : p.noise.bytes ++ p.image ++ (wire rest ++ tail.bytes) =
        wire (p :: rest) ++ tail.bytes := by
      simp [wire]
    rw [hw] at hc
    have hl : (Cut.ofBuffer (wire (p :: rest) ++ tail.bytes)).isWhole = true ∧
        (Cut.ofBuffer (wire (p :: rest) ++ tail.bytes)).left = wire rest ++ tail.bytes := by
      rw [hc]
      split <;> exact ⟨rfl,rfl⟩
    refine .intro (Cut.not_refused_of_isWhole hl.1) fun _ => ?_
    rw [hl.2]
    exact ih hrest

/-- The last sequence number that arrives, or the one before. -/
def lastSequence (before : Option UInt8) (ps : List Passage) : Option UInt8 :=
  ((ps.filter (·.damage.isNone)).getLast?.map (·.frame.sequence)).or before

theorem lastSequence_cons (before : Option UInt8) (p : Passage) (ps : List Passage) :
    lastSequence before (p :: ps) = lastSequence (lastSequence before [p]) ps := by
  cases hp : p.damage with
  | none =>
    simp only [lastSequence,List.filter_cons,hp,Option.isNone_none,↓reduceIte,List.getLast?_cons]
    cases (ps.filter fun p => p.damage.isNone).getLast? <;> rfl
  | some damage => simp [lastSequence,hp]

/-- One look at a buffer with a frame in front takes the frame off and in as `assemble` does. -/
theorem step_wire (size : Nat) {x : α} (hx : (passage x).Sendable) {behind : Bytes} {d : Decoder}
    {held : List α} (hb : d.buffer = (passage x).noise.bytes ++ (passage x).image ++ behind)
    (hh : Assembly.Holding (fun x => (passage x).segment size) d.pending held) :
    let view := fun x => (passage x).segment size
    let told := Assembly.assemble view held [x]
    let step := d.step size
    (∀ e, step ≠ .idle e) ∧ step.messages = told.1.map (Assembly.message view) ∧
      Assembly.Holding view step.decoder.pending told.2 ∧ step.decoder.buffer = behind ∧
      step.decoder.lastSequence = lastSequence d.lastSequence [passage x] := by
  intro view told step
  obtain ⟨kind,hk,hc⟩ := ofBuffer_wire (passage x) hx behind
  rw [← hb] at hc
  cases hd : (passage x).damage with
  | some damage =>
    rw [hd] at hc
    have hv : view x = none := by simp [view,segment,hd]
    have hs : step = _ := Decoder.step_of_corrupt hc
    have ht : told = _ := Assembly.assemble_damaged hv held []
    rw [hs,ht]
    exact ⟨by simp,rfl,hh,rfl,by simp [lastSequence,hd,DecoderStep.decoder]⟩
  | none =>
    rw [hd] at hc
    let s : Segment := ⟨kind,(passage x).frame.data,
      0 < size && (passage x).frame.data.length = size⟩
    let e : Decoder := ⟨behind,some (passage x).frame.sequence,d.pending⟩
    have hv : view x = some s := by simp [view,segment,hd,hk,s]
    have hs : step = e.accept s.kind s.data s.full := Decoder.step_of_frame hc
    have hlen : s.data.length ≤ maxReassembled := Nat.le_trans hx.2 (by decide)
    obtain ⟨hmessages,hholding⟩ := Assembly.accept_of_holding (d := e) hh hv hlen
    rw [hs,Decoder.buffer_accept,Decoder.lastSequence_accept]
    refine ⟨fun e' => Decoder.accept_ne_idle _ _ _ _ _,hmessages,hholding,rfl,?_⟩
    simp [lastSequence,hd,e]

/-- What comes out of a decoder at the end of a row of frames, and how it then stands. -/
theorem drain_wire (size : Nat) (xs : List α) (hxs : ∀ x ∈ xs, (passage x).Sendable) (tail : Noise)
    {d : Decoder} {held : List α}
    (hb : d.buffer = wire (xs.map passage) ++ tail.bytes)
    (hh : Assembly.Holding (fun x => (passage x).segment size) d.pending held) :
    let view := fun x => (passage x).segment size
    let told := Assembly.assemble view held xs
    let drained := d.drain size
    drained.1 = told.1.map (Assembly.message view) ∧ drained.2.buffer = [] ∧
      Assembly.Holding view drained.2.pending told.2 ∧
      drained.2.lastSequence = lastSequence d.lastSequence (xs.map passage) := by
  intro view told drained
  induction xs generalizing d held with
  | nil =>
    have hc : Cut.ofBuffer d.buffer = .waiting [] := by
      rw [hb]
      exact Cut.ofBuffer_of_quiet tail.quiet
    have hd : drained = ([],{ d with buffer := [] }) :=
      Decoder.drain_of_idle (Decoder.step_of_waiting hc)
    rw [hd]
    exact ⟨rfl,rfl,hh,rfl⟩
  | cons x rest ih =>
    obtain ⟨hx,hrest⟩ := List.forall_mem_cons.mp hxs
    have hw : d.buffer = (passage x).noise.bytes ++ (passage x).image ++
        (wire (rest.map passage) ++ tail.bytes) := by
      simp [hb,wire]
    obtain ⟨hne,hmessages,hholding,hbehind,hlast⟩ := step_wire size hx hw hh
    obtain ⟨hfound,hempty,hheld,hend⟩ := ih hrest hbehind hholding
    have hd : drained = _ := Decoder.drain_of_ne_idle hne
    have ht : told = _ := Assembly.assemble_append held [x] rest
    rw [hd,ht,List.map_append,List.map_cons,lastSequence_cons,← hlast]
    exact ⟨by rw [hmessages,hfound],hempty,hheld,hend⟩

/-- The same for a decoder that has seen nothing, however the stream is cut into chunks. -/
theorem feedAll_wire (size : Nat) (xs : List α) (hxs : ∀ x ∈ xs, (passage x).Sendable) (tail : Noise)
    {chunks : List Bytes} (hc : chunks.flatten = wire (xs.map passage) ++ tail.bytes) :
    let view := fun x => (passage x).segment size
    let told := Assembly.assemble view [] xs
    let fed := Decoder.empty.feedAll size chunks
    fed.1 = told.1.map (Assembly.message view) ∧ fed.2.buffer = [] ∧
      Assembly.Holding view fed.2.pending told.2 ∧
      fed.2.lastSequence = lastSequence none (xs.map passage) := by
  intro view told fed
  have hps : ∀ p ∈ xs.map passage, p.Sendable := by
    intro p hp
    obtain ⟨x,hx,rfl⟩ := List.mem_map.mp hp
    exact hxs x hx
  have hclean : Cut.Clean (Decoder.empty.buffer ++ chunks.flatten) := by
    rw [hc]
    exact clean_wire hps tail
  have hf : fed = (Decoder.empty.push chunks.flatten).drain size :=
    Decoder.feedAll_eq_drain (Decoder.drained_empty size) hclean
  rw [hf]
  exact drain_wire size xs hxs tail (d := Decoder.empty.push chunks.flatten) hc rfl

end Passage

end RemotePyMite
