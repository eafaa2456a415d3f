import Mathlib.Data.List.DropRight
import RemotePyMite.Frame.Decoder

/-! # Cutting a buffer to which more is added

What a buffer is cut into does not change when more bytes come behind it: a whole frame stays
where it is, and an unfinished one goes on.  The one exception is a buffer that is refused
for its type byte, because it is dropped together with all that had arrived by then.
-/
namespace RemotePyMite

theorem Frame.length_bytes (f : Frame) : f.bytes.length = f.data.length + overhead := by
  simp [bytes,body,overhead]

namespace Cut

/-- The cut of a buffer when more bytes are put behind it. -/
def extend (c : Cut) (more : Bytes) : Cut :=
  match c with
  | .waiting buffer => ofBuffer (buffer ++ more)
  | .corrupt rest => .corrupt (rest ++ more)
  | .frame f kind rest => .frame f kind (rest ++ more)

/-- The first start byte is followed by a type byte that stands for no kind. -/
def Refused (buffer : Bytes) : Prop :=
  ∃ start sequence id tail,
    buffer.dropWhile (· ≠ Frame.startByte) = start :: sequence :: id :: tail ∧
      Kind.ofWire? id = none

theorem Refused.append {buffer : Bytes} (h : Refused buffer) (more : Bytes) :
    Refused (buffer ++ more) := by
  obtain ⟨start,sequence,id,tail,hd,hk⟩ := h
  refine ⟨start,sequence,id,tail ++ more,?_,hk⟩
  rw [List.dropWhile_append,hd]
  simp

theorem dropWhile_start_append (buffer more : Bytes) :
    (buffer.dropWhile (· ≠ Frame.startByte) ++ more).dropWhile (· ≠ Frame.startByte) =
      (buffer ++ more).dropWhile (· ≠ Frame.startByte) := by
  rw [List.dropWhile_append,List.dropWhile_append,List.dropWhile_idempotent]

theorem ofBuffer_dropWhile_append (buffer more : Bytes) :
    ofBuffer (buffer.dropWhile (· ≠ Frame.startByte) ++ more) = ofBuffer (buffer ++ more) := by
  unfold ofBuffer
  rw [dropWhile_start_append]

theorem eq_dropWhile_of_waiting {buffer left : Bytes} (hr : ¬Refused buffer)
    (h : ofBuffer buffer = .waiting left) :
    left = buffer.dropWhile (· ≠ Frame.startByte) := by
  unfold ofBuffer at h
  split at h
  · next start sequence id tail hd =>
    split at h
    · next hk => exact absurd ⟨start,sequence,id,tail,hd,hk⟩ hr
    · split at h
      · cases h; exact hd.symm
      · split at h
        · dsimp only at h
          split at h <;> cases h
        · cases h; exact hd.symm
  · cases h; rfl

theorem ofBuffer_append_of_isWhole {buffer : Bytes} {c : Cut} (hc : ofBuffer buffer = c)
    (hw : c.isWhole = true) (more : Bytes) : ofBuffer (buffer ++ more) = c.extend more := by
  unfold ofBuffer at hc
  split at hc
  · next start sequence id tail hd =>
    split at hc
    · subst hc; cases hw
    · next kind hk =>
      split at hc
      · subst hc; cases hw
      · next length body =>
        split at hc
        · next low high rest hb =>
          have hle : length.toNat ≤ body.length := by
            have := congrArg List.length hb
            simp only [List.length_drop,List.length_cons] at this
            omega
          unfold ofBuffer
          rw [List.dropWhile_append,hd]
          simp only [List.isEmpty_cons,Bool.false_eq_true,↓reduceIte,List.cons_append,hk,
            List.drop_append_of_le_length hle,List.take_append_of_le_length hle,hb]
          dsimp only at hc
          split at hc
          · next heq => subst hc; rw [if_pos heq,extend]
          · next hne => subst hc; rw [if_neg hne,extend]
        · subst hc; cases hw
  · subst hc; cases hw

/-- A buffer that is not refused is cut the same way when more bytes come behind it. -/
theorem ofBuffer_append {buffer : Bytes} (hr : ¬Refused buffer) (more : Bytes) :
    ofBuffer (buffer ++ more) = (ofBuffer buffer).extend more := by
  cases hc : ofBuffer buffer with
  | waiting left =>
    rw [extend,eq_dropWhile_of_waiting hr hc,ofBuffer_dropWhile_append]
  | corrupt rest => exact ofBuffer_append_of_isWhole hc rfl more
  | frame f kind rest => exact ofBuffer_append_of_isWhole hc rfl more

theorem ofBuffer_of_refused {buffer : Bytes} (hr : Refused buffer) :
    ofBuffer buffer = .waiting [] := by
  obtain ⟨start,sequence,id,tail,hd,hk⟩ := hr
  unfold ofBuffer
  rw [hd]
  simp only [hk]

theorem not_refused_of_isWhole {buffer : Bytes} (hw : (ofBuffer buffer).isWhole) :
    ¬Refused buffer := by
  intro hr
  rw [ofBuffer_of_refused hr] at hw
  cases hw

theorem ofBuffer_of_waiting {buffer left : Bytes} (h : ofBuffer buffer = .waiting left) :
    ofBuffer left = .waiting left := by
  by_cases hr : Refused buffer
  · rw [ofBuffer_of_refused hr] at h
    cases h
    rfl
  · have hl := ofBuffer_append hr []
    rwa [h,List.append_nil,extend,List.append_nil,h,eq_comm] at hl

theorem refused_dropWhile_append_iff (buffer more : Bytes) :
    Refused (buffer.dropWhile (· ≠ Frame.startByte) ++ more) ↔ Refused (buffer ++ more) := by
  unfold Refused
  rw [dropWhile_start_append]

@[simp] theorem left_extend {c : Cut} (hw : c.isWhole = true) (more : Bytes) :
    (c.extend more).left = c.left ++ more := by
  cases c with
  | waiting left => cases hw
  | corrupt rest => rfl
  | frame f kind rest => rfl

theorem isWhole_extend {c : Cut} (hw : c.isWhole = true) (more : Bytes) :
    (c.extend more).isWhole = true := by
  cases c with
  | waiting left => cases hw
  | corrupt rest => rfl
  | frame f kind rest => rfl

/-- A stream on which no buffer is refused, from its first frame to its end. -/
inductive Clean : Bytes → Prop
  | intro {buffer : Bytes} (hr : ¬Refused buffer)
      (hl : (ofBuffer buffer).isWhole = true → Clean (ofBuffer buffer).left) : Clean buffer

theorem Clean.not_refused {buffer more : Bytes} (h : Clean (buffer ++ more)) :
    ¬Refused buffer := by
  cases h with
  | intro hr hl => exact fun h => hr (h.append more)

theorem Clean.left_append {buffer more : Bytes} (h : Clean (buffer ++ more))
    (hw : (ofBuffer buffer).isWhole = true) : Clean ((ofBuffer buffer).left ++ more) := by
  have ha := ofBuffer_append h.not_refused more
  cases h with
  | intro hr hl =>
    rw [ha] at hl
    rw [← left_extend hw]
    exact hl (isWhole_extend hw more)

/-- A buffer from which nothing can be taken out may be replaced by what is left of it. -/
theorem Clean.waiting_append {buffer left more : Bytes} (h : Clean (buffer ++ more))
    (hc : ofBuffer buffer = .waiting left) : Clean (left ++ more) := by
  rw [eq_dropWhile_of_waiting h.not_refused hc]
  cases h with
  | intro hr hl =>
    refine .intro (fun h => hr ((refused_dropWhile_append_iff buffer more).mp h)) ?_
    rw [ofBuffer_dropWhile_append]
    exact hl

theorem dropWhile_start_of_quiet {noise : Bytes} (hn : Frame.startByte ∉ noise) (rest : Bytes) :
    (noise ++ rest).dropWhile (· ≠ Frame.startByte) =
      rest.dropWhile (· ≠ Frame.startByte) := by
  apply List.dropWhile_append_of_pos
  intro b hb
  simpa using fun h : b = Frame.startByte => hn (h ▸ hb)

theorem ofBuffer_of_quiet {noise : Bytes} (hn : Frame.startByte ∉ noise) :
    ofBuffer noise = .waiting [] := by
  have hd := dropWhile_start_of_quiet hn []
  rw [List.append_nil,List.dropWhile_nil] at hd
  unfold ofBuffer
  rw [hd]

theorem not_refused_of_quiet {noise : Bytes} (hn : Frame.startByte ∉ noise) :
    ¬Refused noise := by
  have hd := dropWhile_start_of_quiet hn []
  rw [List.append_nil,List.dropWhile_nil] at hd
  rintro ⟨start,sequence,id,tail,h,-⟩
  rw [hd] at h
  cases h

theorem ofBuffer_body {noise : Bytes} (hn : Frame.startByte ∉ noise) {f : Frame} {kind : Kind}
    (hk : Kind.ofWire? f.kind = some kind) (hlen : f.data.length ≤ Frame.maxData)
    (low high : UInt8) (rest : Bytes) :
    ofBuffer (noise ++ (f.body ++ low :: high :: rest)) =
      if (Checksum.compute f.body).toNat = Word.ofLittleEndian [low,high] then
        .frame f kind rest
      else .corrupt rest := by
  have hd : (noise ++ (f.body ++ low :: high :: rest)).dropWhile (· ≠ Frame.startByte) =
      Frame.startByte :: f.sequence :: f.kind :: UInt8.ofNat f.data.length ::
        (f.data ++ low :: high :: rest) := by
    rw [dropWhile_start_of_quiet hn]
    simp [Frame.body]
  have hl : (UInt8.ofNat f.data.length).toNat = f.data.length := by
    simp only [Frame.maxData] at hlen
    simp only [UInt8.toNat_ofNat']
    omega
  unfold ofBuffer
  rw [hd]
  simp only [hk,hl,List.drop_left,List.take_left]

end Cut

end RemotePyMite
