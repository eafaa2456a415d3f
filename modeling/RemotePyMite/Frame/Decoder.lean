import RemotePyMite.Frame.Basic
import RemotePyMite.Message.Basic

/-! # Decoding a stream of frames

Bytes go in as they arrive; messages come out one at a time.  A frame whose data is
exactly as long as a segment is not the end of its message: its data is kept, and the
data of the next frames of the same kind is put behind it up to the first frame that is
shorter.  Every frame that is taken out makes the buffer at least six bytes shorter
(`step_length`), so taking messages out comes to an end.
-/
namespace RemotePyMite

/-- The longest message that is put together from segments. -/
def maxReassembled : Nat := 65535

/-- Data of a message that has not ended, last byte first, and how much it is. -/
structure Reassembly where
  kind : Kind
  reversed : Bytes
  size : Nat
  size_eq : size = reversed.length

namespace Reassembly

def start (kind : Kind) (data : Bytes) : Reassembly :=
  ⟨kind, data.reverse, data.reverse.length, rfl⟩

def push (r : Reassembly) (data : Bytes) : Reassembly :=
  ⟨r.kind, data.reverse ++ r.reversed, data.length + r.size, by simp [r.size_eq]⟩

def data (r : Reassembly) : Bytes :=
  r.reversed.reverse

@[simp] theorem data_start (kind : Kind) (bytes : Bytes) : (start kind bytes).data = bytes := by
  simp [start, data]

@[simp] theorem data_push (r : Reassembly) (bytes : Bytes) :
    (r.push bytes).data = r.data ++ bytes := by
  simp [push, data]

@[simp] theorem length_data (r : Reassembly) : r.data.length = r.size := by
  simp [data, r.size_eq]

end Reassembly

/-- What lies at the front of a buffer. -/
inductive Cut where
  /-- No whole frame; these bytes may become one. -/
  | waiting (buffer : Bytes)
  /-- A frame with a wrong checksum, and what is behind it. -/
  | corrupt (rest : Bytes)
  /-- A frame, its kind, and what is behind it. -/
  | frame (frame : Frame) (kind : Kind) (rest : Bytes)

namespace Cut

/-- Cuts the first frame off a buffer.  Bytes in front of a start byte are dropped; if
what follows is not of a kind that travels, everything is. -/
def ofBuffer (buffer : Bytes) : Cut :=
  match buffer.dropWhile (· ≠ Frame.startByte) with
  | start :: sequence :: id :: tail =>
    match Kind.ofWire? id with
    | none => .waiting []
    | some kind =>
      match tail with
      | [] => .waiting [start, sequence, id]
      | length :: body =>
        match body.drop length.toNat with
        | low :: high :: rest =>
          let frame : Frame := ⟨sequence, id, body.take length.toNat⟩
          if (Checksum.compute frame.body).toNat = Word.ofLittleEndian [low, high] then
            .frame frame kind rest
          else .corrupt rest
        | _ => .waiting (start :: sequence :: id :: length :: body)
  | short => .waiting short

def left : Cut → Bytes
  | .waiting buffer => buffer
  | .corrupt rest => rest
  | .frame _ _ rest => rest

def isWhole : Cut → Bool
  | .waiting _ => false
  | _ => true

theorem length_left {buffer : Bytes} (h : (ofBuffer buffer).isWhole) :
    (ofBuffer buffer).left.length + 6 ≤ buffer.length := by
  have hd := (List.dropWhile_sublist (l := buffer) (· ≠ Frame.startByte)).length_le
  unfold ofBuffer at h ⊢
  split at h
  · next start sequence id tail hb =>
    rw [hb] at hd
    split at h
    · simp [isWhole] at h
    · split at h
      · simp [isWhole] at h
      · next length body =>
        split at h
        · next low high rest hr =>
          have hl := congrArg List.length hr
          simp only [List.length_drop, List.length_cons] at hl hd
          dsimp only
          split <;> simp only [left] <;> omega
        · simp [isWhole] at h
  · simp [isWhole] at h

end Cut

/-- Where the decoding of a stream stands. -/
structure Decoder where
  /-- Bytes that arrived and were not taken out. -/
  buffer : Bytes
  /-- The sequence number of the last frame with a right checksum. -/
  lastSequence : Option UInt8
  /-- A message that has not ended. -/
  pending : Option Reassembly

/-- What one look at the buffer gives. -/
inductive DecoderStep where
  /-- Nothing until more bytes arrive. -/
  | idle (d : Decoder)
  /-- A frame that ends no message. -/
  | absorbed (d : Decoder)
  | message (m : Message) (d : Decoder)

def DecoderStep.decoder : DecoderStep → Decoder
  | .idle d => d
  | .absorbed d => d
  | .message _ d => d

namespace Decoder

def empty : Decoder := ⟨[], none, none⟩

def push (d : Decoder) (bytes : Bytes) : Decoder :=
  { d with buffer := d.buffer ++ bytes }

/-- The data of a frame that stands alone or starts a message. -/
def first (d : Decoder) (kind : Kind) (data : Bytes) (full : Bool) : DecoderStep :=
  if full then .absorbed { d with pending := some (.start kind data) }
  else .message (.ofKindOrDefective kind data) { d with pending := none }

/-- The data of a frame; `full` says that it is as long as a segment. -/
def accept (d : Decoder) (kind : Kind) (data : Bytes) (full : Bool) : DecoderStep :=
  match d.pending with
  | none => d.first kind data full
  | some r =>
    if r.kind = kind then
      let r := r.push data
      if maxReassembled < r.size then .absorbed { d with pending := none }
      else if full then .absorbed { d with pending := some r }
      else .message (.ofKindOrDefective kind r.data) { d with pending := none }
    else d.first kind data full

/-- Takes the next frame out of the buffer, for segments of `size` bytes; a size of zero
means that no frame is a segment. -/
def step (size : Nat) (d : Decoder) : DecoderStep :=
  match Cut.ofBuffer d.buffer with
  | .waiting buffer => .idle { d with buffer }
  | .corrupt rest => .message .defective { d with buffer := rest }
  | .frame frame kind rest =>
    accept { d with buffer := rest, lastSequence := some frame.sequence } kind frame.data
      (0 < size && frame.data.length = size)

@[simp] theorem buffer_first (d : Decoder) (kind : Kind) (data : Bytes) (full : Bool) :
    (d.first kind data full).decoder.buffer = d.buffer := by
  unfold first
  split <;> rfl

@[simp] theorem buffer_accept (d : Decoder) (kind : Kind) (data : Bytes) (full : Bool) :
    (d.accept kind data full).decoder.buffer = d.buffer := by
  unfold accept
  split
  · exact buffer_first ..
  · split
    · dsimp only
      split
      · rfl
      · split <;> rfl
    · exact buffer_first ..

theorem step_length (size : Nat) (d : Decoder) :
    (∃ d', d.step size = .idle d') ∨
      (d.step size).decoder.buffer.length + 6 ≤ d.buffer.length := by
  have h := @Cut.length_left d.buffer
  unfold step
  split
  · exact .inl ⟨_, rfl⟩
  · next rest hc =>
    rw [hc] at h
    exact .inr (h rfl)
  · next frame kind rest hc =>
    rw [hc] at h
    right
    rw [buffer_accept]
    exact h rfl

theorem length_of_step_absorbed {size : Nat} {d d' : Decoder}
    (h : d.step size = .absorbed d') : d'.buffer.length + 6 ≤ d.buffer.length := by
  rcases step_length size d with ⟨e, he⟩ | hl
  · rw [h] at he; cases he
  · rwa [h] at hl

theorem length_of_step_message {size : Nat} {d d' : Decoder} {m : Message}
    (h : d.step size = .message m d') : d'.buffer.length + 6 ≤ d.buffer.length := by
  rcases step_length size d with ⟨e, he⟩ | hl
  · rw [h] at he; cases he
  · rwa [h] at hl

/-- The next message in the buffer, if a whole one is there. -/
def next (size : Nat) (d : Decoder) : Option Message × Decoder :=
  match _h : d.step size with
  | .idle d' => (none, d')
  | .message m d' => (some m, d')
  | .absorbed d' => next size d'
termination_by d.buffer.length
decreasing_by
  have := length_of_step_absorbed _h
  omega

/-- A message that is taken out leaves the buffer at least six bytes shorter. -/
theorem length_of_next {size : Nat} {d d' : Decoder} {m : Message}
    (h : d.next size = (some m, d')) : d'.buffer.length + 6 ≤ d.buffer.length := by
  fun_induction next size d with
  | case1 d e he => cases h
  | case2 d m' e he =>
    cases h
    exact length_of_step_message he
  | case3 d e he ih =>
    have := length_of_step_absorbed he
    have := ih h
    omega

/-- More bytes, and the next message if a whole one is there then. -/
def feed (d : Decoder) (bytes : Bytes) (size : Nat) : Option Message × Decoder :=
  (d.push bytes).next size

/-- Whether a message has begun and not ended. -/
def isReassembling (d : Decoder) : Bool :=
  d.pending.isSome

/-- All messages that can be taken out, first to last. -/
def drain (size : Nat) (d : Decoder) : List Message × Decoder :=
  match _h : d.next size with
  | (none, d') => ([], d')
  | (some m, d') =>
    let (more, d'') := drain size d'
    (m :: more, d'')
termination_by d.buffer.length
decreasing_by
  have := length_of_next _h
  omega

end Decoder

end RemotePyMite
