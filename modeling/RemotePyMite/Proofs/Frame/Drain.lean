import RemotePyMite.Proofs.Frame.Cut

/-! # Draining a decoder, in one piece or in many

One look at the buffer commutes with putting more bytes behind it (`step_push`), so draining
after every chunk gives what draining the whole stream at once gives (`feedAll_eq_drain`).
This holds of every stream on which the decoder never refuses its buffer.
-/
namespace RemotePyMite

def DecoderStep.messages : DecoderStep → List Message
  | .message m _ => [m]
  | _ => []

def DecoderStep.push (s : DecoderStep) (more : Bytes) : DecoderStep :=
  match s with
  | .idle d => .idle (d.push more)
  | .absorbed d => .absorbed (d.push more)
  | .message m d => .message m (d.push more)

namespace Decoder
variable {size : Nat} {d e : Decoder} {m : Message}

/-- What a frame with a right checksum does to a decoder. -/
def receive (size : Nat) (d : Decoder) (f : Frame) (kind : Kind) : DecoderStep :=
  accept { d with lastSequence := some f.sequence } kind f.data
    (0 < size && f.data.length = size)

@[simp] theorem buffer_push (d : Decoder) (bytes : Bytes) :
    (d.push bytes).buffer = d.buffer ++ bytes := rfl

@[simp] theorem push_nil (d : Decoder) : d.push [] = d := by
  simp [push]

theorem accept_push (d : Decoder) (kind : Kind) (data : Bytes) (full : Bool) (more : Bytes) :
    (d.push more).accept kind data full = (d.accept kind data full).push more := by
  have hf : (d.push more).first kind data full = (d.first kind data full).push more := by
    unfold first
    split <;> rfl
  unfold accept
  rw [show (d.push more).pending = d.pending from rfl]
  split
  · exact hf
  · split
    · dsimp only
      split
      · rfl
      · split <;> rfl
    · exact hf

theorem receive_push (size : Nat) (d : Decoder) (f : Frame) (kind : Kind) (more : Bytes) :
    receive size (d.push more) f kind = (receive size d f kind).push more :=
  accept_push { d with lastSequence := some f.sequence } kind f.data _ more

theorem accept_ne_idle (d e : Decoder) (kind : Kind) (data : Bytes) (full : Bool) :
    d.accept kind data full ≠ .idle e := by
  have hf : d.first kind data full ≠ .idle e := by
    unfold first
    split <;> simp
  unfold accept
  split
  · exact hf
  · split
    · dsimp only
      split
      · simp
      · split <;> simp
    · exact hf

theorem receive_ne_idle (size : Nat) (d : Decoder) (f : Frame) (kind : Kind) (e : Decoder) :
    receive size d f kind ≠ .idle e :=
  accept_ne_idle _ _ _ _ _

theorem step_of_waiting {left : Bytes} (hc : Cut.ofBuffer d.buffer = .waiting left) :
    d.step size = .idle { d with buffer := left } := by
  unfold step
  rw [hc]

theorem step_of_corrupt {rest : Bytes} (hc : Cut.ofBuffer d.buffer = .corrupt rest) :
    d.step size = .message .defective { d with buffer := rest } := by
  unfold step
  rw [hc]

theorem step_of_frame {f : Frame} {kind : Kind} {rest : Bytes}
    (hc : Cut.ofBuffer d.buffer = .frame f kind rest) :
    d.step size = receive size { d with buffer := rest } f kind := by
  unfold step
  rw [hc]
  rfl

/-- A look at the buffer once more bytes are there: where there was nothing to take out, it
is as if they had come behind what was left. -/
theorem step_push (size : Nat) (hr : ¬Cut.Refused d.buffer) (more : Bytes) :
    (d.push more).step size =
      match d.step size with
      | .idle e => (e.push more).step size
      | s => s.push more := by
  have ha := Cut.ofBuffer_append hr more
  cases hc : Cut.ofBuffer d.buffer with
  | waiting left =>
    rw [hc] at ha
    rw [step_of_waiting hc]
    unfold step
    simp only [buffer_push,ha]
    rfl
  | corrupt rest =>
    rw [hc] at ha
    rw [step_of_corrupt hc,step_of_corrupt (d := d.push more) ha]
    rfl
  | frame f kind rest =>
    rw [hc] at ha
    have hp := receive_push size { d with buffer := rest } f kind more
    have hi := receive_ne_idle size { d with buffer := rest } f kind
    rw [step_of_frame hc,step_of_frame (d := d.push more) ha]
    cases hs : receive size { d with buffer := rest } f kind with
    | idle e => exact absurd hs (hi e)
    | absorbed e => rw [hs] at hp; exact hp
    | message m e => rw [hs] at hp; exact hp

theorem next_of_idle (h : d.step size = .idle e) : d.next size = (none,e) := by
  rw [next]
  split <;> simp_all

theorem next_of_message (h : d.step size = .message m e) : d.next size = (some m,e) := by
  rw [next]
  split <;> simp_all

theorem next_of_absorbed (h : d.step size = .absorbed e) : d.next size = e.next size := by
  rw [next]
  split <;> simp_all

theorem drain_of_none (h : d.next size = (none,e)) : d.drain size = ([],e) := by
  rw [drain]
  split <;> simp_all

theorem drain_of_some (h : d.next size = (some m,e)) :
    d.drain size = (m :: (e.drain size).1,(e.drain size).2) := by
  rw [drain]
  split <;> simp_all

theorem drain_congr (h : d.next size = e.next size) : d.drain size = e.drain size := by
  cases hn : e.next size with
  | mk found e' =>
    cases found with
    | none => rw [drain_of_none hn,drain_of_none (h.trans hn)]
    | some m => rw [drain_of_some hn,drain_of_some (h.trans hn)]

theorem drain_of_idle (h : d.step size = .idle e) : d.drain size = ([],e) :=
  drain_of_none (next_of_idle h)

theorem drain_of_message (h : d.step size = .message m e) :
    d.drain size = (m :: (e.drain size).1,(e.drain size).2) :=
  drain_of_some (next_of_message h)

theorem drain_of_absorbed (h : d.step size = .absorbed e) : d.drain size = e.drain size :=
  drain_congr (next_of_absorbed h)

theorem drain_of_ne_idle (h : ∀ e, d.step size ≠ .idle e) :
    d.drain size = ((d.step size).messages ++ ((d.step size).decoder.drain size).1,
      ((d.step size).decoder.drain size).2) := by
  cases hs : d.step size with
  | idle e => exact absurd hs (h e)
  | absorbed e => exact drain_of_absorbed hs
  | message m e => exact drain_of_message hs

/-- What holds of a decoder if it holds after each step holds of all. -/
@[elab_as_elim] theorem step_induction {P : Decoder → Prop} (size : Nat)
    (idle : ∀ d e, d.step size = .idle e → P d)
    (absorbed : ∀ d e, d.step size = .absorbed e → P e → P d)
    (message : ∀ d m e, d.step size = .message m e → P e → P d) (d : Decoder) : P d := by
  generalize hn : d.buffer.length = n
  induction n using Nat.strongRecOn generalizing d with
  | ind n ih =>
    cases hs : d.step size with
    | idle e => exact idle d e hs
    | absorbed e =>
      have hl := length_of_step_absorbed hs
      exact absorbed d e hs (ih e.buffer.length (by omega) e rfl)
    | message m e =>
      have hl := length_of_step_message hs
      exact message d m e hs (ih e.buffer.length (by omega) e rfl)

theorem buffer_step (size : Nat) (d : Decoder) :
    (d.step size).decoder.buffer = (Cut.ofBuffer d.buffer).left := by
  cases hc : Cut.ofBuffer d.buffer with
  | waiting left => rw [step_of_waiting hc]; rfl
  | corrupt rest => rw [step_of_corrupt hc]; rfl
  | frame f kind rest =>
    rw [step_of_frame hc]
    exact buffer_accept _ _ _ _

theorem isWhole_of_step_ne_idle (h : ∀ e, d.step size ≠ .idle e) :
    (Cut.ofBuffer d.buffer).isWhole = true := by
  cases hc : Cut.ofBuffer d.buffer with
  | waiting left => exact absurd (step_of_waiting hc) (h _)
  | corrupt rest => rfl
  | frame f kind rest => rfl

theorem waiting_of_step_idle (h : d.step size = .idle e) :
    Cut.ofBuffer d.buffer = .waiting e.buffer := by
  cases hc : Cut.ofBuffer d.buffer with
  | waiting left => rw [step_of_waiting hc] at h; cases h; rfl
  | corrupt rest => rw [step_of_corrupt hc] at h; cases h
  | frame f kind rest =>
    rw [step_of_frame hc] at h
    exact absurd h (receive_ne_idle _ _ _ _ _)

theorem step_idle_again (h : d.step size = .idle e) : e.step size = .idle e :=
  step_of_waiting (Cut.ofBuffer_of_waiting (waiting_of_step_idle h))

/-- Nothing more can be taken out. -/
def Drained (size : Nat) (d : Decoder) : Prop :=
  d.drain size = ([],d)

theorem drained_empty (size : Nat) : Drained size empty :=
  drain_of_idle rfl

theorem drained_drain (size : Nat) (d : Decoder) : Drained size (d.drain size).2 := by
  induction d using step_induction size with
  | idle d e hs => rw [drain_of_idle hs]; exact drain_of_idle (step_idle_again hs)
  | absorbed d e hs ih => rw [drain_of_absorbed hs]; exact ih
  | message d m e hs ih => rw [drain_of_message hs]; exact ih

theorem clean_step (size : Nat) (hs : ∀ e, d.step size ≠ .idle e) {more : Bytes}
    (h : Cut.Clean (d.buffer ++ more)) :
    Cut.Clean ((d.step size).decoder.buffer ++ more) := by
  rw [buffer_step]
  exact h.left_append (isWhole_of_step_ne_idle hs)

theorem next_of_next_none (h : d.next size = (none,e)) : e.next size = (none,e) := by
  induction d using step_induction size with
  | idle d e' hs =>
    rw [next_of_idle hs] at h
    cases h
    exact next_of_idle (step_idle_again hs)
  | absorbed d e' hs ih => exact ih (next_of_absorbed hs ▸ h)
  | message d m e' hs ih => rw [next_of_message hs] at h; cases h

theorem next_congr (h : d.step size = e.step size) : d.next size = e.next size := by
  cases hs : e.step size with
  | idle e' => rw [next_of_idle hs,next_of_idle (h.trans hs)]
  | absorbed e' => rw [next_of_absorbed hs,next_of_absorbed (h.trans hs)]
  | message m e' => rw [next_of_message hs,next_of_message (h.trans hs)]

/-- The next message once more bytes are there: where there was none, it is as if they had come
behind what was left. -/
theorem next_push (size : Nat) (d : Decoder) {more : Bytes} (h : Cut.Clean (d.buffer ++ more)) :
    (match d.next size with
      | (none,e) => (d.push more).next size = (e.push more).next size
      | (some m,e) => (d.push more).next size = (some m,e.push more)) ∧
      Cut.Clean ((d.next size).2.buffer ++ more) := by
  induction d using step_induction size with
  | idle d e hs =>
    have hp := step_push size h.not_refused more
    rw [hs] at hp
    rw [next_of_idle hs]
    exact ⟨next_congr hp,h.waiting_append (waiting_of_step_idle hs)⟩
  | absorbed d e hs ih =>
    have hp := step_push size h.not_refused more
    have hc := clean_step size (by simp [hs]) h
    rw [hs] at hp hc
    rw [next_of_absorbed hs,next_of_absorbed (d := d.push more) hp]
    exact ih hc
  | message d m e hs ih =>
    have hp := step_push size h.not_refused more
    have hc := clean_step size (by simp [hs]) h
    rw [hs] at hp hc
    rw [next_of_message hs]
    exact ⟨next_of_message (d := d.push more) hp,hc⟩

/-- Draining before more bytes come changes nothing about what comes out in the end, as long
as no buffer is refused. -/
theorem drain_push (size : Nat) (d : Decoder) {more : Bytes}
    (h : Cut.Clean (d.buffer ++ more)) :
    let first := d.drain size
    let second := (first.2.push more).drain size
    (d.push more).drain size = (first.1 ++ second.1,second.2) ∧
      Cut.Clean (first.2.buffer ++ more) := by
  fun_induction drain size d with
  | case1 d e hn =>
    obtain ⟨hp,hc⟩ := next_push size d h
    rw [hn] at hp hc
    exact ⟨drain_congr hp,hc⟩
  | case2 d m e hn found e' hd ih =>
    obtain ⟨hp,hc⟩ := next_push size d h
    rw [hn] at hp hc
    obtain ⟨hrest,hclean⟩ := ih hc
    rw [hd] at hrest hclean
    rw [drain_of_some (d := d.push more) hp,hrest]
    exact ⟨rfl,hclean⟩

/-- Chunks one after another, with all messages taken out after each. -/
def feedAll (size : Nat) (d : Decoder) : List Bytes → List Message × Decoder
  | [] => ([],d)
  | chunk :: rest =>
    let (found,d) := (d.push chunk).drain size
    let (more,d) := feedAll size d rest
    (found ++ more,d)

/-- However a clean stream is cut into chunks, what comes out is what comes out of the whole
of it. -/
theorem feedAll_eq_drain (hd : Drained size d) {chunks : List Bytes}
    (h : Cut.Clean (d.buffer ++ chunks.flatten)) :
    feedAll size d chunks = (d.push chunks.flatten).drain size := by
  induction chunks generalizing d with
  | nil =>
    rw [List.flatten_nil,push_nil]
    exact hd.symm
  | cons chunk rest ih =>
    rw [List.flatten_cons,← List.append_assoc] at h
    obtain ⟨he,hc⟩ := drain_push size (d.push chunk) h
    have hp : d.push (chunk :: rest).flatten = (d.push chunk).push rest.flatten := by
      simp [push]
    have hi := ih (drained_drain size (d.push chunk)) hc
    rw [hp,he,feedAll]
    dsimp only
    rw [hi]

end Decoder

end RemotePyMite
