import RemotePyMite.Proofs.Frame.Taken

/-! # A decoder gets back into step

A decoder that has nothing to give holds the beginning of one frame at most (`Awaits`), and each message
it gives costs six bytes.  As what it holds is always the end of what arrived, enough bytes without a
start byte empty it, and the next frame then comes through (`answers_recover`).
-/
namespace RemotePyMite

/-- The beginning of a frame that is not there as a whole, or nothing. -/
structure Awaits (buffer : Bytes) : Prop where
  start : ∀ b ∈ buffer.head?, b = Frame.startByte
  kind : ∀ type ∈ buffer[2]?, (Kind.ofWire? type).isSome
  unfinished : buffer.length < 6 ∨ ∃ length ∈ buffer[3]?, buffer.length < 6 + length.toNat

theorem awaits_nil : Awaits [] :=
  ⟨by simp,by simp,.inl (by simp)⟩

theorem Awaits.length_le {buffer : Bytes} (h : Awaits buffer) : buffer.length ≤ 260 := by
  rcases h.unfinished with hl | ⟨length,-,hl⟩
  · omega
  · have hmax := length.toNat_lt
    omega

/-- The beginning of a frame cannot lie in bytes without a start byte. -/
theorem Awaits.eq_nil {buffer stream quiet : Bytes} (h : Awaits buffer) (hb : buffer <:+ stream)
    (hq : quiet <:+ stream) (hquiet : Frame.startByte ∉ quiet) (hl : 260 ≤ quiet.length) :
    buffer = [] := by
  cases buffer with
  | nil => rfl
  | cons b rest =>
    have hsuffix := List.suffix_of_suffix_length_le hb hq (h.length_le.trans hl)
    exact absurd (hsuffix.subset (h.start b rfl ▸ List.mem_cons_self)) hquiet

namespace Cut

theorem awaits_of_waiting {buffer left : Bytes} (h : ofBuffer buffer = .waiting left) :
    Awaits left := by
  have hstart : ∀ b ∈ (buffer.dropWhile (· ≠ Frame.startByte)).head?, b = Frame.startByte := by
    intro b hb
    have hnot := List.head?_dropWhile_not (· ≠ Frame.startByte) buffer
    rw [hb] at hnot
    simpa using hnot
  unfold ofBuffer at h
  split at h
  · next start sequence type tail hd =>
    rw [hd] at hstart
    split at h
    · cases h
      exact awaits_nil
    · next kind hk =>
      have htype : ∀ t, some type = some t → (Kind.ofWire? t).isSome := by
        rintro _ ⟨⟩
        rw [hk]
        rfl
      split at h
      · cases h
        exact ⟨hstart,htype,.inl (by simp)⟩
      · next length body =>
        split at h
        · dsimp only at h
          split at h <;> cases h
        · next hshort =>
          cases h
          refine ⟨hstart,htype,.inr ⟨length,rfl,?_⟩⟩
          have hdrop : (body.drop length.toNat).length < 2 := by
            match hb : body.drop length.toNat with
            | [] => simp
            | [_] => simp
            | low :: high :: rest => exact absurd hb (hshort low high rest)
          rw [List.length_drop] at hdrop
          simp only [List.length_cons]
          omega
  · next hshort =>
    cases h
    have hl : (buffer.dropWhile (· ≠ Frame.startByte)).length < 3 := by
      match hb : buffer.dropWhile (· ≠ Frame.startByte) with
      | [] => simp
      | [_] => simp
      | [_,_] => simp
      | start :: sequence :: type :: tail => exact absurd hb (hshort start sequence type tail)
    refine ⟨hstart,fun type ht => ?_,.inl (by omega)⟩
    rw [List.getElem?_eq_none (by omega)] at ht
    cases ht

theorem left_suffix (buffer : Bytes) : (ofBuffer buffer).left <:+ buffer := by
  cases hw : (ofBuffer buffer).isWhole with
  | false =>
    cases hc : ofBuffer buffer with
    | waiting left => exact suffix_of_waiting hc
    | corrupt rest => rw [hc] at hw; cases hw
    | frame f kind rest => rw [hc] at hw; cases hw
  | true =>
    obtain ⟨noise,f,low,high,rest,kind,hb,-,-,hc⟩ := exists_of_isWhole hw
    have hleft : (ofBuffer buffer).left = rest := by
      rw [hc]
      split <;> rfl
    rw [hleft,hb]
    exact List.suffix_append _ _

end Cut

namespace Decoder
variable {size : Nat} {d e : Decoder}

theorem awaits_of_next_none (h : d.next size = (none,e)) : Awaits e.buffer := by
  induction d using step_induction size with
  | idle d e' hs =>
    rw [next_of_idle hs] at h
    cases h
    exact Cut.awaits_of_waiting (waiting_of_step_idle hs)
  | absorbed d e' hs ih => exact ih (next_of_absorbed hs ▸ h)
  | message d m e' hs ih => rw [next_of_message hs] at h; cases h

theorem buffer_step_suffix (size : Nat) (d : Decoder) :
    (d.step size).decoder.buffer <:+ d.buffer := by
  rw [buffer_step]
  exact Cut.left_suffix d.buffer

theorem buffer_next_suffix (size : Nat) (d : Decoder) : (d.next size).2.buffer <:+ d.buffer := by
  induction d using step_induction size with
  | idle d e hs =>
    have hb := buffer_step_suffix size d
    rw [hs] at hb
    rw [next_of_idle hs]
    exact hb
  | absorbed d e hs ih =>
    have hb := buffer_step_suffix size d
    rw [hs] at hb
    rw [next_of_absorbed hs]
    exact ih.trans hb
  | message d m e hs ih =>
    have hb := buffer_step_suffix size d
    rw [hs] at hb
    rw [next_of_message hs]
    exact hb

theorem length_next_le (size : Nat) (d : Decoder) :
    (d.next size).2.buffer.length + (if (d.next size).1.isSome then 6 else 0) ≤ d.buffer.length := by
  cases hn : d.next size with
  | mk found e =>
    cases found with
    | none =>
      have hl := (buffer_next_suffix size d).length_le
      rw [hn] at hl
      exact hl
    | some m => exact length_of_next hn

/-- The bytes that calls bring. -/
def fed (requests : List Request) : Bytes :=
  requests.flatMap fun request => request.call.bytes

/-- What a decoder holds is the end of what arrived. -/
theorem buffer_answers_suffix (d : Decoder) (requests : List Request) :
    (answers d requests).2.buffer <:+ d.buffer ++ fed requests := by
  induction requests generalizing d with
  | nil => exact (List.append_nil d.buffer).symm ▸ List.suffix_rfl
  | cons request rest ih =>
    have hnext := buffer_next_suffix request.size (d.push request.call.bytes)
    rw [← respond_eq,buffer_push] at hnext
    have hs : (answers d (request :: rest)).2.buffer <:+
        (d.respond request).2.buffer ++ fed rest := ih _
    rw [fed,List.flatMap_cons,← List.append_assoc]
    exact hs.trans (List.suffix_append_self_iff.mpr hnext)

/-- Each message costs six of the bytes that were there or arrived. -/
theorem length_answers_le (d : Decoder) (requests : List Request) :
    (answers d requests).2.buffer.length + 6 * (answers d requests).1.countP Option.isSome ≤
      d.buffer.length + (fed requests).length := by
  induction requests generalizing d with
  | nil => simp [answers,fed]
  | cons request rest ih =>
    have hnext := length_next_le request.size (d.push request.call.bytes)
    rw [← respond_eq,buffer_push,List.length_append] at hnext
    have hrest := ih (d.respond request).2
    have hfed : (fed (request :: rest)).length = request.call.bytes.length + (fed rest).length := by
      rw [fed,List.flatMap_cons,List.length_append,fed]
    rw [hfed]
    simp only [answers,List.countP_cons]
    split at hnext
    · next hsome =>
      rw [if_pos hsome]
      omega
    · next hnone =>
      rw [if_neg hnone]
      omega

theorem length_answers (d : Decoder) (requests : List Request) :
    (answers d requests).1.length = requests.length := by
  induction requests generalizing d with
  | nil => rfl
  | cons request rest ih => simp only [answers,List.length_cons,ih]

/-- A decoder asked more often than it has messages says that it has none. -/
theorem none_mem_answers {d : Decoder} {requests : List Request}
    (h : d.buffer.length + (fed requests).length < 6 * requests.length) :
    none ∈ (answers d requests).1 := by
  by_contra hnone
  have hall : (answers d requests).1.countP Option.isSome = (answers d requests).1.length :=
    List.countP_eq_length.mpr fun m hm =>
      Option.isSome_iff_ne_none.mpr fun hn => hnone (hn ▸ hm)
  have hle := length_answers_le d requests
  rw [hall,length_answers] at hle
  omega

theorem awaits_of_answers {d : Decoder} {requests : List Request}
    (h : (answers d requests).1.getLast? = some none) : Awaits (answers d requests).2.buffer := by
  induction requests generalizing d with
  | nil => cases h
  | cons request rest ih =>
    cases rest with
    | nil =>
      have hnone : (d.respond request).1 = none := Option.some.inj h
      have hnext : (d.push request.call.bytes).next request.size = (none,(d.respond request).2) := by
        rw [← respond_eq]
        exact Prod.ext hnone rfl
      exact awaits_of_next_none hnext
    | cons request' rest =>
      refine ih (d := (d.respond request).2) ?_
      rw [← h]
      simp only [answers,List.getLast?_cons_cons]

theorem drained_of_nil {d : Decoder} (h : d.buffer = []) : Drained size d := by
  have hd : d.step size = .idle { d with buffer := [] } :=
    step_of_waiting (h ▸ Cut.ofBuffer_of_quiet List.not_mem_nil)
  rw [Drained,drain_of_idle hd,← h]

/-- A frame that meets an empty buffer, in whatever pieces. -/
theorem feedAll_frame (size : Nat) {d : Decoder} (hd : d.buffer = []) {f : Frame} {kind : Kind}
    (hk : Kind.ofWire? f.kind = some kind) (hl : f.data.length ≤ 255) {chunks : List Bytes}
    (hc : chunks.flatten = f.bytes) :
    let taken := receive size d f kind
    feedAll size d chunks = (taken.messages,taken.decoder) ∧ taken.decoder.buffer = [] := by
  intro taken
  let p : Passage := ⟨.silence,f,none⟩
  have hsend : p.Sendable := ⟨by rw [hk]; rfl,hl⟩
  obtain ⟨kind',hk',hcut⟩ := p.ofBuffer_wire hsend []
  have hkind : kind' = kind := Option.some.inj (hk'.symm.trans hk)
  have hbytes : d.buffer ++ chunks.flatten = p.noise.bytes ++ p.image ++ [] := by
    rw [hd,hc,List.append_nil]
    rfl
  have hclean := Passage.clean_wire (List.forall_mem_singleton.mpr hsend) .silence
  have hwire : d.buffer ++ chunks.flatten = Passage.wire [p] ++ Noise.silence.bytes := by
    rw [hbytes,Passage.wire,List.flatMap_singleton]
    rfl
  have hempty : { d with buffer := [] } = d := by rw [← hd]
  have hstep : (d.push chunks.flatten).step size = taken := by
    rw [← hbytes,hkind] at hcut
    have hs : _ = receive size { d with buffer := [] } f kind :=
      step_of_frame (d := d.push chunks.flatten) hcut
    rw [hs,hempty]
  have hbuffer : taken.decoder.buffer = [] := (buffer_accept _ _ _ _).trans hd
  refine ⟨?_,hbuffer⟩
  rw [feedAll_eq_drain (drained_of_nil hd) (hwire ▸ hclean),
    drain_of_ne_idle (hstep ▸ receive_ne_idle size d f kind),hstep,
    show drain size taken.decoder = _ from drained_of_nil hbuffer,List.append_nil]

/-- Whatever calls a decoder got: if it has nothing to give, it holds the beginning of one frame at most;
each message costs six bytes, so asking for messages comes to an end; 260 bytes without a start byte
empty it; and an empty buffer takes the next frame, which stands alone unless a message has begun or the
frame is full. -/
theorem answers_recover (d : Decoder) (requests : List Request) :
    let run := answers d requests
    (run.1.getLast? = some none → Awaits run.2.buffer ∧ run.2.buffer.length ≤ 260) ∧
      (∀ request m e, run.2.respond request = (some m,e) →
        e.buffer.length + 6 ≤ run.2.buffer.length + request.call.bytes.length) ∧
      (∀ sizes : List Nat, run.2.buffer.length < 6 * sizes.length →
        none ∈ (answers run.2 (sizes.map fun size => ⟨.next,size⟩)).1) ∧
      (run.1.getLast? = some none → 260 ≤ (fed requests).length → Frame.startByte ∉ fed requests →
        run.2.buffer = []) ∧
      ∀ (size : Nat) (f : Frame) (kind : Kind) (chunks : List Bytes), run.2.buffer = [] →
        Kind.ofWire? f.kind = some kind → f.data.length ≤ 255 → chunks.flatten = f.bytes →
        let taken := receive size run.2 f kind
        feedAll size run.2 chunks = (taken.messages,taken.decoder) ∧ taken.decoder.buffer = [] ∧
          taken.decoder.lastSequence = some f.sequence ∧
          (run.2.pending = none → f.data.length ≠ size →
            taken.messages = [.ofKindOrDefective kind f.data]) := by
  intro run
  refine ⟨?_,?_,?_,?_,?_⟩
  · intro h
    exact ⟨awaits_of_answers h,(awaits_of_answers h).length_le⟩
  · intro request m e h
    have hl := length_of_next (respond_eq _ _ ▸ h)
    rwa [buffer_push,List.length_append] at hl
  · intro sizes h
    refine none_mem_answers ?_
    simpa [fed,Call.bytes,List.flatMap_map] using h
  · intro h hl hq
    exact (awaits_of_answers h).eq_nil (buffer_answers_suffix d requests) (List.suffix_append _ _) hq hl
  · intro size f kind chunks hb hk hl hc taken
    obtain ⟨hfed,hempty⟩ := feedAll_frame size hb hk hl hc
    refine ⟨hfed,hempty,lastSequence_accept _ _ _ _,?_⟩
    intro hp hne
    simp [taken,receive,accept,first,hp,hne,DecoderStep.messages]

end Decoder

end RemotePyMite
