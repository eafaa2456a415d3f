import RemotePyMite.Proofs.Frame.Passage

/-! # Decoding in pieces

A caller may bring the bytes of a stream in any pieces and ask for messages whenever it likes, and
the length that it gives for full segments may follow from the messages it has got.  Unless the
decoder refuses its buffer somewhere in the stream, what it delivers depends on neither: every way
ends where feeding the whole stream and draining ends (`finish_foldl_perform`).
-/
namespace RemotePyMite.Decoder

/-- A call on a decoder, which takes out at most one message. -/
inductive Call where
  | feed (bytes : Bytes)
  | next
  deriving DecidableEq

def Call.bytes : Call → Bytes
  | .feed bytes => bytes
  | .next => []

/-- The messages that came out so far and the decoder, after one more call. -/
def perform (size : List Message → Nat) (run : List Message × Decoder) (call : Call) :
    List Message × Decoder :=
  let (found,d) := match call with
    | .feed bytes => run.2.feed bytes (size run.1)
    | .next => run.2.next (size run.1)
  (run.1 ++ found.toList,d)

/-- Takes messages out until there is none. -/
def finish (size : List Message → Nat) (run : List Message × Decoder) : List Message × Decoder :=
  match _h : run.2.next (size run.1) with
  | (none,d) => (run.1,d)
  | (some m,d) => finish size (run.1 ++ [m],d)
termination_by run.2.buffer.length
decreasing_by
  have := length_of_next _h
  omega

/-- The second run comes out of the first by looks at the buffer, with the length of full segments
that belongs to the messages found before each. -/
inductive Reaches (size : List Message → Nat) :
    List Message × Decoder → List Message × Decoder → Prop
  | refl (run : List Message × Decoder) : Reaches size run run
  | absorbed {found : List Message} {d e : Decoder} {run : List Message × Decoder}
      (h : d.step (size found) = .absorbed e) (rest : Reaches size (found,e) run) :
      Reaches size (found,d) run
  | message {found : List Message} {d e : Decoder} {m : Message} {run : List Message × Decoder}
      (h : d.step (size found) = .message m e) (rest : Reaches size (found ++ [m],e) run) :
      Reaches size (found,d) run

variable {size : List Message → Nat} {found : List Message} {d e : Decoder}

theorem not_refused_of_reaches {run run' : List Message × Decoder} (h : Reaches size run run')
    (hc : Cut.Clean run.2.buffer) : ¬Cut.Refused run'.2.buffer := by
  induction h with
  | refl run =>
    rw [← List.append_nil run.2.buffer] at hc
    exact hc.not_refused
  | @absorbed found d e run hs _ ih =>
    rw [← List.append_nil (found,d).2.buffer] at hc
    have hn := clean_step (size found) (by simp [hs]) hc
    rw [hs,List.append_nil] at hn
    exact ih hn
  | @message found d e m run hs _ ih =>
    rw [← List.append_nil (found,d).2.buffer] at hc
    have hn := clean_step (size found) (by simp [hs]) hc
    rw [hs,List.append_nil] at hn
    exact ih hn

/-- A buffer on which no look finds a start byte with a type byte that stands for no kind is
clean, whatever the lengths of full segments. -/
theorem clean_of_reaches
    (h : ∀ found' e, Reaches size (found,d) (found',e) → ¬Cut.Refused e.buffer) :
    Cut.Clean d.buffer := by
  generalize hn : d.buffer.length = n
  induction n using Nat.strongRecOn generalizing found d with
  | ind n ih =>
    refine .intro (h found d (.refl _)) fun hw => ?_
    rw [← buffer_step (size found) d]
    cases hs : d.step (size found) with
    | idle e =>
      rw [waiting_of_step_idle hs] at hw
      cases hw
    | absorbed e =>
      have hl := length_of_step_absorbed hs
      exact ih e.buffer.length (by omega) (fun _ _ hr => h _ _ (.absorbed hs hr)) rfl
    | message m e =>
      have hl := length_of_step_message hs
      exact ih e.buffer.length (by omega) (fun _ _ hr => h _ _ (.message hs hr)) rfl

theorem finish_of_none (h : d.next (size found) = (none,e)) :
    finish size (found,d) = (found,e) := by
  rw [finish]
  split <;> simp_all

theorem finish_of_some {m : Message} (h : d.next (size found) = (some m,e)) :
    finish size (found,d) = finish size (found ++ [m],e) := by
  rw [finish]
  split <;> simp_all

theorem finish_congr (h : d.next (size found) = e.next (size found)) :
    finish size (found,d) = finish size (found,e) := by
  cases hn : e.next (size found) with
  | mk m d' =>
    cases m with
    | none => rw [finish_of_none hn,finish_of_none (h.trans hn)]
    | some m => rw [finish_of_some hn,finish_of_some (h.trans hn)]

theorem prefix_finish (run : List Message × Decoder) : run.1 <+: (finish size run).1 := by
  fun_induction finish size run with
  | case1 run d _ => exact List.prefix_refl _
  | case2 run m d _ ih => exact (List.prefix_append _ _).trans ih

theorem perform_eq (run : List Message × Decoder) (call : Call) :
    perform size run call =
      (run.1 ++ ((run.2.push call.bytes).next (size run.1)).1.toList,
        ((run.2.push call.bytes).next (size run.1)).2) := by
  cases call with
  | feed bytes => rfl
  | next => rw [Call.bytes,push_nil]; rfl

/-- A call before more bytes come changes nothing about where the stream ends. -/
theorem finish_perform (size : List Message → Nat) (found : List Message) (call : Call) {more : Bytes}
    (h : Cut.Clean (d.buffer ++ (call.bytes ++ more))) :
    let run := perform size (found,d) call
    finish size (run.1,run.2.push more) = finish size (found,d.push (call.bytes ++ more)) ∧
      Cut.Clean (run.2.buffer ++ more) := by
  intro run
  have hr : run = _ := perform_eq (found,d) call
  have hp : d.push (call.bytes ++ more) = (d.push call.bytes).push more := by simp [push]
  rw [← List.append_assoc] at h
  obtain ⟨hn,hc⟩ := next_push (size found) (d.push call.bytes) h
  rw [hr,hp]
  dsimp only
  refine ⟨?_,hc⟩
  cases hf : (d.push call.bytes).next (size found) with
  | mk m e =>
    rw [hf] at hn
    cases m with
    | none =>
      simp only [Option.toList_none,List.append_nil]
      exact finish_congr hn.symm
    | some m => exact (finish_of_some hn).symm

theorem finish_calls (size : List Message → Nat) (found : List Message) (calls : List Call)
    (h : Cut.Clean (d.buffer ++ calls.flatMap Call.bytes)) :
    finish size (calls.foldl (perform size) (found,d)) =
      finish size (found,d.push (calls.flatMap Call.bytes)) := by
  induction calls generalizing found d with
  | nil => rw [List.flatMap_nil,push_nil,List.foldl_nil]
  | cons call rest ih =>
    rw [List.flatMap_cons] at h
    obtain ⟨hf,hc⟩ := finish_perform size found call h
    rw [List.foldl_cons,List.flatMap_cons,← hf]
    exact ih _ hc

/-- A call that takes nothing out leaves nothing to take out. -/
theorem finish_of_perform_none {run : List Message × Decoder} {call : Call}
    (h : (perform size run call).1 = run.1) :
    finish size (perform size run call) = perform size run call := by
  rw [perform_eq] at h ⊢
  cases hn : (run.2.push call.bytes).next (size run.1) with
  | mk m e =>
    rw [hn] at h
    cases m with
    | none =>
      simp only [Option.toList_none,List.append_nil]
      exact finish_of_none (next_of_next_none hn)
    | some m => simp at h

/-- A stream is brought to a decoder in any calls, where each call is given a length for full
segments that may depend on the messages so far.  Unless feeding the whole stream and draining
would refuse the buffer at some look, the messages are the first of those that this gives, and
draining, now or by a last call that finds nothing, ends exactly as this does. -/
theorem finish_foldl_perform (size : List Message → Nat) (d : Decoder) (stream : Bytes)
    (hclean : ∀ found e, Reaches size ([],d.push stream) (found,e) → ¬Cut.Refused e.buffer)
    (calls : List Call) (hcalls : calls.flatMap Call.bytes = stream) :
    let whole := finish size (perform size ([],d) (.feed stream))
    let run := calls.foldl (perform size) ([],d)
    run.1 <+: whole.1 ∧ finish size run = whole ∧
      ∀ earlier last, calls = earlier ++ [last] →
        (earlier.foldl (perform size) ([],d)).1 = run.1 → run = whole := by
  intro whole run
  have hc : Cut.Clean (d.buffer ++ stream) := clean_of_reaches hclean
  have hwhole : whole = finish size ([],d.push stream) := by
    have hfeed : Cut.Clean (d.buffer ++ [Call.feed stream].flatMap Call.bytes) := by
      simpa [Call.bytes] using hc
    simpa [Call.bytes] using finish_calls size [] [.feed stream] hfeed
  have hrun : finish size run = whole := by
    rw [hwhole,← hcalls]
    exact finish_calls size [] calls (by rwa [hcalls])
  refine ⟨?_,hrun,?_⟩
  · rw [← hrun]
    exact prefix_finish run
  · intro earlier last hl hsame
    have hlast : run = perform size (earlier.foldl (perform size) ([],d)) last := by
      simp only [run,hl,List.foldl_append,List.foldl_cons,List.foldl_nil]
    rw [← hrun,hlast]
    exact (finish_of_perform_none (by rw [← hlast,hsame])).symm

/-- A segment of four bytes with its end, a damaged frame, and a segment of two bytes with its end:
the length of full segments changes with the first message.  The stream is cut inside a header. -/
theorem finish_foldl_perform_sizes :
    let size : List Message → Nat := fun found => if found.isEmpty then 4 else 2
    let passages : List Passage := [⟨⟨[0],by decide⟩,⟨1,7,[97,98,99,100]⟩,none⟩,
      ⟨.silence,⟨2,7,[120]⟩,none⟩,⟨.silence,⟨3,10,[97]⟩,some (.checksum _)⟩,
      ⟨.silence,⟨4,9,[97,98]⟩,none⟩,⟨.silence,⟨5,9,[]⟩,none⟩]
    let stream := Passage.wire passages
    let calls : List Call := [.feed (stream.take 9),.next,.feed (stream.drop 9),.next,.next,.next]
    (∀ found e, Reaches size ([],empty.push stream) (found,e) → ¬Cut.Refused e.buffer) ∧
      calls.flatMap Call.bytes = stream ∧
      (calls.foldl (perform size) ([],empty)).1 =
        [.memList ⟨[97,98,99,100,120]⟩,.defective,.autorunList ⟨[97,98]⟩] ∧
      finish size (perform size ([],empty) (.feed stream)) =
        calls.foldl (perform size) ([],empty) := by
  intro size passages stream calls
  have hsend : ∀ p ∈ passages, p.Sendable := by
    simp only [passages,List.forall_mem_cons,Passage.Sendable]
    exact ⟨by decide,by decide,by decide,by decide,by decide,by simp⟩
  have hclean : ∀ found e, Reaches size ([],empty.push stream) (found,e) →
      ¬Cut.Refused e.buffer := by
    intro found e h
    refine not_refused_of_reaches h ?_
    have hc := Passage.clean_wire hsend .silence
    rwa [Noise.silence,List.append_nil] at hc
  have hcalls : calls.flatMap Call.bytes = stream := by
    simp [calls,Call.bytes]
  obtain ⟨-,-,hend⟩ := finish_foldl_perform size empty stream hclean calls hcalls
  refine ⟨hclean,hcalls,by decide +kernel,?_⟩
  exact (hend [.feed (stream.take 9),.next,.feed (stream.drop 9),.next,.next] .next rfl
    (by decide +kernel)).symm

end RemotePyMite.Decoder
