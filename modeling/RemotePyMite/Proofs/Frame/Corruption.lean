import RemotePyMite.Proofs.Checksum.Detection
import RemotePyMite.Proofs.Frame.Passage

/-! # Frames with flipped bits

A link that flips bits of a frame, but not of its start byte and its length, and that leaves it a
type byte that stands for a kind, hands over a frame with a wrong checksum whenever the pattern of
the flipped bits is one that the checksum shows (`Flips.fails`).  A decoder then reports that one
frame and is otherwise as it was.
-/
namespace RemotePyMite

/-- A byte string of which a link flips the set bits of a pattern. -/
def Bytes.flip (bytes pattern : Bytes) : Bytes :=
  List.zipWith (· ^^^ ·) bytes pattern

theorem Bytes.length_flip {bytes pattern : Bytes} (h : pattern.length = bytes.length) :
    (bytes.flip pattern).length = bytes.length := by
  simp [flip,h]

theorem Bytes.getElem?_flip_of_zero {bytes pattern : Bytes} (h : pattern.length = bytes.length)
    {i : Nat} (hi : pattern[i]? = some 0) : (bytes.flip pattern)[i]? = bytes[i]? := by
  obtain ⟨hlt,-⟩ := List.getElem?_eq_some_iff.mp hi
  have hb : bytes[i]? = some bytes[i] := List.getElem?_eq_getElem (h ▸ hlt)
  rw [flip,List.getElem?_zipWith,hi,hb]
  exact congrArg some (UInt8.xor_zero)

theorem zipWith_xor_zipWith_xor {a b : List Bool} (h : b.length = a.length) :
    List.zipWith xor a (List.zipWith xor a b) = b := by
  induction a generalizing b with
  | nil => exact (List.eq_nil_of_length_eq_zero h).symm
  | cons x a ih =>
    cases b with
    | nil => cases h
    | cons y b =>
      rw [List.zipWith_cons_cons,List.zipWith_cons_cons,ih (Nat.succ.inj h),← Bool.xor_assoc,
        Bool.xor_self,Bool.false_xor]

namespace Frame
variable {f : Frame} {pattern : Bytes}

theorem getElem?_bytes_zero (f : Frame) : f.bytes[0]? = some startByte := by
  simp [bytes,body]

theorem getElem?_bytes_three (f : Frame) : f.bytes[3]? = some (UInt8.ofNat f.data.length) := by
  simp [bytes,body]

theorem holds_bytes (f : Frame) : Checksum.Holds f.bytes := by
  refine (Checksum.holds_append_pair f.body _ _).mpr ?_
  exact Word.ofLittleEndian_littleEndian_toNat (Checksum.compute f.body)

/-- A pattern of bits that a link may flip in a frame without touching its start byte and its
length, and without making its type byte one that stands for no kind. -/
structure Flips (f : Frame) (pattern : Bytes) : Prop where
  length_eq : pattern.length = f.bytes.length
  start_eq : pattern[0]? = some 0
  size_eq : pattern[3]? = some 0
  kind : ∃ id kind, (f.bytes.flip pattern)[2]? = some id ∧ Kind.ofWire? id = some kind

/-- The difference of what was sent and what arrives is the pattern, so no multiple of the
divisor. -/
theorem Flips.fails (h : f.Flips pattern) (hmax : f.data.length ≤ maxData)
    (hbits : Checksum.Detectable pattern.bits) : ¬Checksum.Holds (f.bytes.flip pattern) := by
  intro hholds
  have hlen := Frame.length_bytes f
  have hdiff : List.zipWith xor f.bytes.bits (f.bytes.flip pattern).bits = pattern.bits := by
    rw [Bytes.flip,Bytes.bits_zipWith_xor]
    exact zipWith_xor_zipWith_xor (by simp [h.length_eq])
  have hdvd := Checksum.divisor_dvd_of_holds (Bytes.length_flip h.length_eq).symm
    (by rw [hlen,overhead]; omega) f.holds_bytes hholds
  rw [hdiff] at hdvd
  refine Checksum.not_dvd_of_detectable ?_ hbits hdvd
  rw [Bytes.length_bits,h.length_eq,hlen]
  simp only [maxData] at hmax
  simp only [overhead,Checksum.maxBits]
  omega

/-- What arrives is a damaged frame, of the kind that the flipped type byte stands for. -/
def Flips.damage (h : f.Flips pattern) (hmax : f.data.length ≤ maxData)
    (hbits : Checksum.Detectable pattern.bits) {id : UInt8}
    (hid : (f.bytes.flip pattern)[2]? = some id) : Damage ⟨f.sequence,id,f.data⟩ where
  bytes := f.bytes.flip pattern
  length_eq := by rw [Bytes.length_flip h.length_eq,Frame.length_bytes,Frame.length_bytes]
  start_eq := by
    rw [Bytes.getElem?_flip_of_zero h.length_eq h.start_eq,getElem?_bytes_zero,getElem?_bytes_zero]
  kind_eq := by
    rw [hid]
    simp [bytes,body]
  size_eq := by
    rw [Bytes.getElem?_flip_of_zero h.length_eq h.size_eq,getElem?_bytes_three,
      getElem?_bytes_three]
  fails := h.fails hmax hbits

end Frame

/-- A frame in which a link flips bits that the checksum shows is reported once, and the decoder is
as before it arrived. -/
theorem Decoder.drain_flipped {f : Frame} {pattern : Bytes} (hmax : f.data.length ≤ 255)
    (hflips : f.Flips pattern) (hbits : Checksum.Detectable pattern.bits) {d : Decoder}
    (hd : d.buffer = []) (size : Nat) :
    f.encode = .ok f.bytes ∧ (d.push (f.bytes.flip pattern)).drain size = ([.defective],d) := by
  obtain ⟨id,kind,hid,hk⟩ := hflips.kind
  let p : Passage := ⟨.silence,⟨f.sequence,id,f.data⟩,some (hflips.damage hmax hbits hid)⟩
  obtain ⟨_,-,hcut⟩ := p.ofBuffer_wire ⟨Option.isSome_iff_exists.mpr ⟨kind,hk⟩,hmax⟩ []
  have hbuffer : (d.push (f.bytes.flip pattern)).buffer = p.noise.bytes ++ p.image ++ [] := by
    rw [buffer_push,hd,List.append_nil]
    rfl
  rw [← hbuffer] at hcut
  have hempty : ({ d.push (f.bytes.flip pattern) with buffer := [] } : Decoder) = d := by
    rw [← hd]
    rfl
  have hstep : (d.push (f.bytes.flip pattern)).step size = _ := step_of_corrupt hcut
  rw [hempty] at hstep
  have hidle : d.step size = .idle d := by
    have hnone : Cut.ofBuffer d.buffer = .waiting [] := by
      rw [hd]
      rfl
    have h : d.step size = _ := step_of_waiting hnone
    rwa [← hd] at h
  refine ⟨if_pos hmax,?_⟩
  rw [drain_of_message hstep,drain_of_idle hidle]

/-- A flipped bit in the type byte and one in the data, while a message has begun. -/
theorem Decoder.drain_flipped_two_bits :
    let f : Frame := ⟨7,3,[0x61]⟩
    let pattern : Bytes := [0,0,1,0,1,0,0]
    let d : Decoder := ⟨[],some 6,some (.start .sync [0x62])⟩
    f.data.length ≤ 255 ∧ f.Flips pattern ∧ Checksum.Detectable pattern.bits ∧ d.buffer = [] ∧
      f.encode = .ok f.bytes ∧ (d.push (f.bytes.flip pattern)).drain 1 = ([.defective],d) := by
  intro f pattern d
  have hflips : f.Flips pattern := ⟨rfl,rfl,rfl,2,.nack,by decide,by decide⟩
  have hbits : Checksum.Detectable pattern.bits := .inr (.inl (by decide))
  exact ⟨by decide,hflips,hbits,rfl,drain_flipped (by decide) hflips hbits rfl 1⟩

end RemotePyMite
