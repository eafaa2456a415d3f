import RemotePyMite.Frame.Writer

/-! # Writing frames, whatever the stream answers

A sending makes a row of calls on its stream.  Every write offers exactly what the stream has not
taken of the frame, and a flush is asked for only when it has taken all (`Offers`).  All calls but
the last leave the sending undecided, and the last one decides it (`Decides`).  What a sending
gives, and how the writer then stands, follows from these two.
-/
namespace RemotePyMite

/-- A call on a stream, and what the stream made of it. -/
inductive StreamCall where
  | write (offered : Bytes) (answer : WriteAnswer)
  | flush (answer : FlushAnswer)
  deriving DecidableEq, Repr

namespace StreamCall

/-- What the stream took. -/
def taken : StreamCall → Bytes
  | .write offered (.takes n) => offered.take n
  | _ => []

/-- What a call makes of the sending that it is part of, unless that goes on. -/
def verdict : StreamCall → Option (Except FrameError Unit)
  | .write _ (.takes n) => if n = 0 then some (.error .connectionClosed) else none
  | .write _ (.fails kind) | .flush (.fails kind) =>
    if Stream.isTransient kind then none else some (.error (.io (.ofKind kind)))
  | .flush .works => some (.ok ())

/-- What the stream took in a row of calls. -/
def takenIn (calls : List StreamCall) : Bytes :=
  calls.flatMap taken

/-- The calls offer a stream what is left of a frame, and flush it once nothing is left. -/
def Offers : Bytes → List StreamCall → Prop
  | _, [] => True
  | left, .write offered answer :: calls =>
    offered = left ∧ left ≠ [] ∧ Offers (left.drop (taken (.write offered answer)).length) calls
  | left, .flush _ :: calls => left = [] ∧ Offers left calls

/-- The last of the calls is the first that decides. -/
def Decides (calls : List StreamCall) (outcome : Except FrameError Unit) : Prop :=
  ∃ before last, calls = before ++ [last] ∧ (∀ call ∈ before, call.verdict = none) ∧
    last.verdict = some outcome

@[simp] theorem takenIn_nil : takenIn [] = [] := rfl

@[simp] theorem takenIn_cons (call : StreamCall) (calls : List StreamCall) :
    takenIn (call :: calls) = call.taken ++ takenIn calls := rfl

@[simp] theorem takenIn_append (a b : List StreamCall) :
    takenIn (a ++ b) = takenIn a ++ takenIn b :=
  List.flatMap_append

theorem Offers.append {left : Bytes} {a b : List StreamCall} (ha : Offers left a)
    (hb : Offers (left.drop (takenIn a).length) b) : Offers left (a ++ b) := by
  induction a generalizing left with
  | nil => exact hb
  | cons call a ih =>
    rw [takenIn_cons,List.length_append,← List.drop_drop] at hb
    cases call with
    | write offered answer => exact ⟨ha.1,ha.2.1,ih ha.2.2 hb⟩
    | flush answer => exact ⟨ha.1,ih ha.2 hb⟩

theorem Offers.of_append {left : Bytes} {a b : List StreamCall} (h : Offers left (a ++ b)) :
    Offers left a ∧ Offers (left.drop (takenIn a).length) b := by
  induction a generalizing left with
  | nil => exact ⟨trivial,h⟩
  | cons call a ih =>
    rw [takenIn_cons,List.length_append,← List.drop_drop]
    cases call with
    | write offered answer =>
      obtain ⟨ha,hb⟩ := ih h.2.2
      exact ⟨⟨h.1,h.2.1,ha⟩,hb⟩
    | flush answer =>
      obtain ⟨ha,hb⟩ := ih h.2
      exact ⟨⟨h.1,ha⟩,hb⟩

theorem taken_append_drop (offered : Bytes) (answer : WriteAnswer) :
    taken (.write offered answer) ++ offered.drop (taken (.write offered answer)).length =
      offered := by
  cases answer with
  | takes n =>
    rw [taken,List.length_take,Nat.min_def]
    split
    · exact List.take_append_drop n offered
    · next h => rw [List.take_of_length_le (by omega),List.drop_length,List.append_nil]
  | fails kind => rfl

theorem drop_length_taken (offered : Bytes) (n : Nat) :
    offered.drop (taken (.write offered (.takes n))).length = offered.drop n := by
  have ha := taken_append_drop offered (.takes n)
  exact List.append_cancel_left (ha.trans (List.take_append_drop n offered).symm)

/-- Nothing is taken twice, left out or put elsewhere. -/
theorem Offers.takenIn_isPrefix {left : Bytes} {calls : List StreamCall} (h : Offers left calls) :
    takenIn calls <+: left := by
  induction calls generalizing left with
  | nil => exact List.nil_prefix
  | cons call calls ih =>
    cases call with
    | write offered answer =>
      obtain ⟨rfl,-,hrest⟩ := h
      have hp := (List.prefix_append_right_inj (taken (.write offered answer))).mpr (ih hrest)
      rwa [taken_append_drop] at hp
    | flush answer => exact ih h.2

theorem verdict_cases {call : StreamCall} {outcome : Except FrameError Unit}
    (h : call.verdict = some outcome) :
    outcome = .ok () ∧ call = .flush .works ∨
      outcome = .error .connectionClosed ∧ (∃ offered, call = .write offered (.takes 0)) ∨
      ∃ kind, outcome = .error (.io (.ofKind kind)) ∧ Stream.isTransient kind = false ∧
        (call = .flush (.fails kind) ∨ ∃ offered, call = .write offered (.fails kind)) := by
  have hfails : ∀ {kind : IoErrorKind}, (if Stream.isTransient kind then none
      else some (.error (.io (.ofKind kind)) : Except FrameError Unit)) = some outcome →
      outcome = .error (.io (.ofKind kind)) ∧ Stream.isTransient kind = false := by
    intro kind hk
    cases ht : Stream.isTransient kind with
    | true => simp [ht] at hk
    | false => simpa [ht,eq_comm] using hk
  match call with
  | .flush .works => exact .inl ⟨(Option.some.inj h).symm,rfl⟩
  | .flush (.fails kind) =>
    obtain ⟨ho,ht⟩ := hfails h
    exact .inr (.inr ⟨kind,ho,ht,.inl rfl⟩)
  | .write offered (.fails kind) =>
    obtain ⟨ho,ht⟩ := hfails h
    exact .inr (.inr ⟨kind,ho,ht,.inr ⟨offered,rfl⟩⟩)
  | .write offered (.takes 0) => exact .inr (.inl ⟨(Option.some.inj h).symm,offered,rfl⟩)
  | .write offered (.takes (n + 1)) => cases h

theorem Decides.eq_of_mem {calls : List StreamCall} {outcome other : Except FrameError Unit}
    (h : Decides calls outcome) {call : StreamCall} (hmem : call ∈ calls)
    (hv : call.verdict = some other) : outcome = other := by
  obtain ⟨before,last,rfl,hbefore,hlast⟩ := h
  rw [List.mem_append,List.mem_singleton] at hmem
  rcases hmem with hmem | rfl
  · rw [hbefore call hmem] at hv
    cases hv
  · rw [hlast] at hv
    exact Option.some.inj hv

theorem Decides.cons {calls : List StreamCall} {outcome : Except FrameError Unit}
    (h : Decides calls outcome) {call : StreamCall} (hv : call.verdict = none) :
    Decides (call :: calls) outcome := by
  obtain ⟨before,last,rfl,hbefore,hlast⟩ := h
  exact ⟨call :: before,last,rfl,List.forall_mem_cons.mpr ⟨hv,hbefore⟩,hlast⟩

theorem Decides.append {a b : List StreamCall} {outcome : Except FrameError Unit}
    (ha : ∀ call ∈ a, call.verdict = none) (h : Decides b outcome) : Decides (a ++ b) outcome := by
  induction a with
  | nil => exact h
  | cons call a ih =>
    obtain ⟨hcall,ha⟩ := List.forall_mem_cons.mp ha
    exact (ih ha).cons hcall

/-- The calls that a row of writes makes of some bytes: the last one decides if it failed, and all
was taken if none did. -/
def Writes (bytes : Bytes) (calls : List StreamCall) (outcome : Except FrameError Unit) : Prop :=
  Offers bytes calls ∧
    match outcome with
    | .ok () => takenIn calls = bytes ∧ ∀ call ∈ calls, call.verdict = none
    | .error e => Decides calls (.error e)

theorem Writes.cons {bytes : Bytes} {calls : List StreamCall} {outcome : Except FrameError Unit}
    {answer : WriteAnswer} (hne : bytes ≠ []) (hv : verdict (.write bytes answer) = none)
    (h : Writes (bytes.drop (taken (.write bytes answer)).length) calls outcome) :
    Writes bytes (.write bytes answer :: calls) outcome := by
  obtain ⟨hoffers,hend⟩ := h
  refine ⟨⟨rfl,hne,hoffers⟩,?_⟩
  match outcome with
  | .ok () =>
    refine ⟨?_,List.forall_mem_cons.mpr ⟨hv,hend.2⟩⟩
    rw [takenIn_cons,hend.1,taken_append_drop]
  | .error e => exact Decides.cons hend hv

theorem Writes.last {bytes : Bytes} {answer : WriteAnswer} {e : FrameError} (hne : bytes ≠ [])
    (hv : verdict (.write bytes answer) = some (.error e)) :
    Writes bytes [.write bytes answer] (.error e) :=
  ⟨⟨rfl,hne,trivial⟩,[],_,rfl,by simp,hv⟩

end StreamCall

namespace Stream
open StreamCall

/-- One call to write. -/
def write (s : Stream) (offered : Bytes) : WriteAnswer × Stream :=
  match s.writes with
  | [] => (.takes offered.length,{ s with
      taken := s.taken ++ offered, writeCalls := s.writeCalls + 1 })
  | .takes n :: writes => (.takes n,{ s with
      writes, taken := s.taken ++ offered.take n, writeCalls := s.writeCalls + 1 })
  | .fails kind :: writes => (.fails kind,{ s with writes, writeCalls := s.writeCalls + 1 })

/-- One call to flush. -/
def flushOnce (s : Stream) : FlushAnswer × Stream :=
  match s.flushes with
  | [] => (.works,{ s with flushCalls := s.flushCalls + 1 })
  | answer :: flushes => (answer,{ s with flushes, flushCalls := s.flushCalls + 1 })

/-- The calls, with the answers that the stream gives to them, lead from one stream to the
other. -/
inductive Answers : Stream → List StreamCall → Stream → Prop
  | nil (s : Stream) : Answers s [] s
  | write {s s' s'' : Stream} {offered : Bytes} {answer : WriteAnswer} {calls : List StreamCall}
      (hw : s.write offered = (answer,s')) (h : Answers s' calls s'') :
      Answers s (.write offered answer :: calls) s''
  | flush {s s' s'' : Stream} {answer : FlushAnswer} {calls : List StreamCall}
      (hf : s.flushOnce = (answer,s')) (h : Answers s' calls s'') :
      Answers s (.flush answer :: calls) s''

theorem Answers.append {s s' s'' : Stream} {a b : List StreamCall} (ha : Answers s a s')
    (hb : Answers s' b s'') : Answers s (a ++ b) s'' := by
  induction ha with
  | nil s => exact hb
  | write hw h ih => exact .write hw (ih hb)
  | flush hf h ih => exact .flush hf (ih hb)

theorem taken_write {s s' : Stream} {offered : Bytes} {answer : WriteAnswer}
    (hw : s.write offered = (answer,s')) :
    s'.taken = s.taken ++ StreamCall.taken (.write offered answer) := by
  unfold write at hw
  split at hw <;> cases hw <;> simp [StreamCall.taken]

theorem taken_flushOnce {s s' : Stream} {answer : FlushAnswer} (hf : s.flushOnce = (answer,s')) :
    s'.taken = s.taken := by
  unfold flushOnce at hf
  split at hf <;> cases hf <;> rfl

theorem Answers.taken_eq {s s' : Stream} {calls : List StreamCall} (h : Answers s calls s') :
    s'.taken = s.taken ++ takenIn calls := by
  induction h with
  | nil s => simp
  | write hw h ih => rw [ih,taken_write hw,takenIn_cons,List.append_assoc]
  | flush hf h ih => rw [ih,taken_flushOnce hf]; rfl

/-- Writing all of some bytes is a row of writes that each offer what is left. -/
theorem answers_writeAll (s : Stream) (bytes : Bytes) :
    ∃ calls, s.Answers calls (s.writeAll bytes).2 ∧ Writes bytes calls (s.writeAll bytes).1 := by
  fun_induction writeAll s bytes with
  | case1 s bytes h =>
    rw [List.isEmpty_iff] at h
    subst h
    exact ⟨[],.nil s,trivial,rfl,by simp⟩
  | case2 s bytes h hs =>
    -- the stream has run out of answers, and takes all
    have hne : bytes ≠ [] := by simpa using h
    have hv : verdict (.write bytes (.takes bytes.length)) = none := by
      simp [verdict,hne]
    have hw : s.write bytes = (.takes bytes.length,{ s with
        taken := s.taken ++ bytes, writeCalls := s.writeCalls + 1 }) := by rw [write,hs]
    refine ⟨_,.write hw (.nil _),.cons hne hv ?_⟩
    rw [drop_length_taken,List.drop_length]
    exact ⟨trivial,rfl,by simp⟩
  | case3 s bytes h kind writes hs s' ht ih =>
    have hne : bytes ≠ [] := by simpa using h
    have hw : s.write bytes = (.fails kind,s') := by rw [write,hs]
    obtain ⟨calls,hcalls,hwrites⟩ := ih
    exact ⟨_,.write hw hcalls,.cons hne (if_pos ht) hwrites⟩
  | case4 s bytes h kind writes hs s' ht =>
    have hne : bytes ≠ [] := by simpa using h
    have hw : s.write bytes = (.fails kind,s') := by rw [write,hs]
    exact ⟨_,.write hw (.nil s'),.last hne (if_neg ht)⟩
  | case5 s bytes h writes hs s' =>
    have hne : bytes ≠ [] := by simpa using h
    have hw : s.write bytes = (.takes 0,s') := by rw [write,hs]
    exact ⟨_,.write hw (.nil s'),.last hne rfl⟩
  | case6 s bytes h n writes hs s' hn ih =>
    have hne : bytes ≠ [] := by simpa using h
    have hw : s.write bytes = (.takes n,s') := by rw [write,hs]
    obtain ⟨calls,hcalls,hwrites⟩ := ih
    refine ⟨_,.write hw hcalls,.cons hne (if_neg hn) ?_⟩
    rwa [drop_length_taken]

theorem answers_flush (s : Stream) :
    ∃ calls, s.Answers calls s.flush.2 ∧ Offers [] calls ∧ Decides calls s.flush.1 := by
  have hlast : ∀ {answer : FlushAnswer} {outcome : Except FrameError Unit},
      verdict (.flush answer) = some outcome → Decides [.flush answer] outcome :=
    fun hv => ⟨[],_,rfl,by simp,hv⟩
  fun_induction flush s with
  | case1 s h =>
    have hf : s.flushOnce = (.works,{ s with flushCalls := s.flushCalls + 1 }) := by
      rw [flushOnce,h]
    exact ⟨_,.flush hf (.nil _),⟨rfl,trivial⟩,hlast rfl⟩
  | case2 s flushes h =>
    have hf : s.flushOnce = (.works,{ s with flushes, flushCalls := s.flushCalls + 1 }) := by
      rw [flushOnce,h]
    exact ⟨_,.flush hf (.nil _),⟨rfl,trivial⟩,hlast rfl⟩
  | case3 s kind flushes h s' ht ih =>
    have hf : s.flushOnce = (.fails kind,s') := by rw [flushOnce,h]
    obtain ⟨calls,hcalls,hoffers,hdecides⟩ := ih
    exact ⟨_,.flush hf hcalls,⟨rfl,hoffers⟩,hdecides.cons (if_pos ht)⟩
  | case4 s kind flushes h s' ht =>
    have hf : s.flushOnce = (.fails kind,s') := by rw [flushOnce,h]
    exact ⟨_,.flush hf (.nil s'),⟨rfl,trivial⟩,hlast (if_neg ht)⟩

end Stream

/-- A message that goes into a frame, with its type byte and its data. -/
def Message.Fits (m : Message) (kind : UInt8) (data : Bytes) : Prop :=
  m.wireId = .ok kind ∧ m.toBytes = .ok data ∧ data.length ≤ Frame.maxData

theorem Message.frame_of_fits {m : Message} {kind : UInt8} {data : Bytes} (h : m.Fits kind data)
    (sequence : UInt8) : m.frame sequence = .ok ⟨sequence,kind,data⟩ := by
  obtain ⟨hkind,hdata,hmax⟩ := h
  simp only [frame,hkind,hdata,if_pos hmax]

theorem Message.frame_of_not_fits {m : Message} (h : ¬∃ kind data, m.Fits kind data)
    (sequence : UInt8) : ∃ e, m.frame sequence = .error e := by
  unfold frame
  split
  · exact ⟨_,rfl⟩
  · exact ⟨_,rfl⟩
  · next kind data hkind hdata =>
    by_cases hmax : data.length ≤ Frame.maxData
    · exact absurd ⟨kind,data,hkind,hdata,hmax⟩ h
    · exact ⟨_,if_neg hmax⟩

namespace FrameWriter
open StreamCall

/-- What sending a frame is: the calls it makes of the stream, what it gives and how the writer
then stands. -/
structure Sending (w : FrameWriter) (bytes : Bytes) (calls : List StreamCall)
    (result : Except FrameError UInt8) (w' : FrameWriter) : Prop where
  answers : w.stream.Answers calls w'.stream
  offers : Offers bytes calls
  isPrefix : takenIn calls <+: bytes
  taken_eq : w'.stream.taken = w.stream.taken ++ takenIn calls
  ok_iff : result = .ok (w.lastSequence + 1) ↔
    ∃ before after, calls = before ++ .flush .works :: after ∧ takenIn before = bytes
  closed_iff : result = .error .connectionClosed ↔ ∃ offered, .write offered (.takes 0) ∈ calls
  otherwise : result ≠ .ok (w.lastSequence + 1) → result ≠ .error .connectionClosed →
    ∃ kind, result = .error (.io (.ofKind kind)) ∧ Stream.isTransient kind = false ∧
      (calls.getLast? = some (.flush (.fails kind)) ∨
        ∃ offered, calls.getLast? = some (.write offered (.fails kind)))
  lastSequence_eq : w'.lastSequence =
    match result with
    | .ok sequence => sequence
    | .error _ => w.lastSequence

/-- What a writer makes of a message: a sending of its frame under the next number, or nothing but
an error if it has none. -/
structure Sends (w : FrameWriter) (m : Message) (result : Except FrameError UInt8)
    (w' : FrameWriter) : Prop where
  framed : ∀ kind data, m.Fits kind data →
    ∃ bytes calls, Frame.encode ⟨w.lastSequence + 1,kind,data⟩ = .ok bytes ∧
      Sending w bytes calls result w'
  rejected : (¬∃ kind data, m.Fits kind data) → (∃ e, result = .error e) ∧ w' = w

/-- Messages one after another, with what each sending gives. -/
def sendAll (w : FrameWriter) : List Message → List (Except FrameError UInt8) × FrameWriter
  | [] => ([],w)
  | m :: rest =>
    let (result,w) := w.send m
    let (results,w) := w.sendAll rest
    (result :: results,w)

variable {w : FrameWriter} {bytes : Bytes} {calls : List StreamCall}
  {outcome : Except FrameError Unit}

/-- What a decided sending gives and leaves. -/
def conclude (w : FrameWriter) (s' : Stream) :
    Except FrameError Unit → Except FrameError UInt8 × FrameWriter
  | .ok () => (.ok (w.lastSequence + 1),⟨s',w.lastSequence + 1⟩)
  | .error e => (.error e,⟨s',w.lastSequence⟩)

theorem conclude_eq_ok_iff (s' : Stream) :
    (w.conclude s' outcome).1 = .ok (w.lastSequence + 1) ↔ outcome = .ok () := by
  cases outcome <;> simp [conclude]

theorem conclude_eq_error_iff (s' : Stream) (e : FrameError) :
    (w.conclude s' outcome).1 = .error e ↔ outcome = .error e := by
  cases outcome <;> simp [conclude]

theorem send_of_error {m : Message} {e : FrameError}
    (h : m.frame (w.lastSequence + 1) = .error e) : w.send m = (.error e,w) := by
  unfold send
  simp only [h]

/-- A sending writes its frame and then flushes, and ends with the first call that decides. -/
theorem send_of_frame {m : Message} {f : Frame} (hf : m.frame (w.lastSequence + 1) = .ok f) :
    ∃ calls outcome s', w.stream.Answers calls s' ∧ Offers f.bytes calls ∧ Decides calls outcome ∧
      w.send m = w.conclude s' outcome := by
  obtain ⟨writes,hwrites,hoffers,hend⟩ := w.stream.answers_writeAll f.bytes
  unfold send
  simp only [hf]
  cases hw : w.stream.writeAll f.bytes with
  | mk outcome s₁ =>
    rw [hw] at hwrites hend
    match outcome with
    | .error e => exact ⟨writes,_,s₁,hwrites,hoffers,hend,rfl⟩
    | .ok () =>
      obtain ⟨htaken,hnone⟩ := hend
      obtain ⟨flushes,hflushes,hempty,hdecides⟩ := s₁.answers_flush
      have hleft : f.bytes.drop (takenIn writes).length = [] := by
        rw [htaken,List.drop_length]
      refine ⟨writes ++ flushes,s₁.flush.1,s₁.flush.2,hwrites.append hflushes,
        hoffers.append (hleft ▸ hempty),hdecides.append hnone,?_⟩
      cases hs : s₁.flush with
      | mk outcome s₂ =>
        match outcome with
        | .ok () => simp only [hs,conclude]
        | .error e => simp only [hs,conclude]

theorem sending_of_decides {s' : Stream} (ha : w.stream.Answers calls s') (ho : Offers bytes calls)
    (hd : Decides calls outcome) :
    Sending w bytes calls (w.conclude s' outcome).1 (w.conclude s' outcome).2 := by
  have hstream : (w.conclude s' outcome).2.stream = s' := by cases outcome <;> rfl
  have hprefix := ho.takenIn_isPrefix
  obtain ⟨before,last,hcalls,-,hlast⟩ := id hd
  have hmem : last ∈ calls := by simp [hcalls]
  constructor
  case answers => rwa [hstream]
  case offers => exact ho
  case isPrefix => exact hprefix
  case taken_eq => rw [hstream,ha.taken_eq]
  case ok_iff =>
    rw [conclude_eq_ok_iff]
    constructor
    · rintro rfl
      obtain ⟨-,rfl⟩ | ⟨hc,-⟩ | ⟨_,hc,-⟩ := verdict_cases hlast
      · rw [hcalls] at ho
        -- the flush was asked for, so nothing of the frame was left
        obtain ⟨hwritten,hleft,-⟩ := ho.of_append
        have hlong := List.drop_eq_nil_iff.mp hleft
        exact ⟨before,[],hcalls,hwritten.takenIn_isPrefix.eq_of_length_le hlong⟩
      · cases hc
      · cases hc
    · rintro ⟨front,after,hsplit,-⟩
      have hflush : .flush .works ∈ calls := by simp [hsplit]
      exact hd.eq_of_mem hflush rfl
  case closed_iff =>
    rw [conclude_eq_error_iff]
    constructor
    · rintro rfl
      obtain ⟨hc,-⟩ | ⟨-,offered,rfl⟩ | ⟨_,hc,-⟩ := verdict_cases hlast
      · cases hc
      · exact ⟨offered,hmem⟩
      · cases hc
    · rintro ⟨offered,hzero⟩
      exact hd.eq_of_mem hzero rfl
  case otherwise =>
    intro hok hclosed
    rw [Ne,conclude_eq_ok_iff] at hok
    rw [Ne,conclude_eq_error_iff] at hclosed
    obtain ⟨hc,-⟩ | ⟨hc,-⟩ | ⟨kind,hc,ht,hcall⟩ := verdict_cases hlast
    · exact absurd hc hok
    · exact absurd hc hclosed
    · refine ⟨kind,(conclude_eq_error_iff s' _).mpr hc,ht,?_⟩
      rw [hcalls,List.getLast?_concat]
      simpa using hcall
  case lastSequence_eq => cases outcome <;> rfl

theorem sends_send (w : FrameWriter) (m : Message) : Sends w m (w.send m).1 (w.send m).2 := by
  constructor
  · intro kind data hfits
    obtain ⟨calls,outcome,s',ha,ho,hd,hs⟩ := send_of_frame (m.frame_of_fits hfits _)
    rw [hs]
    exact ⟨_,calls,if_pos hfits.2.2,sending_of_decides ha ho hd⟩
  · intro hnot
    obtain ⟨e,he⟩ := Message.frame_of_not_fits hnot (w.lastSequence + 1)
    rw [send_of_error he]
    exact ⟨⟨e,rfl⟩,rfl⟩

theorem length_sendAll (w : FrameWriter) (messages : List Message) :
    (w.sendAll messages).1.length = messages.length := by
  induction messages generalizing w with
  | nil => rfl
  | cons m rest ih => exact congrArg (· + 1) (ih _)

theorem sends_sendAll (w : FrameWriter) (messages : List Message) {i : Nat} {m : Message}
    (hm : messages[i]? = some m) :
    ∃ result, (w.sendAll messages).1[i]? = some result ∧
      Sends (w.sendAll (messages.take i)).2 m result (w.sendAll (messages.take (i + 1))).2 := by
  induction messages generalizing w i with
  | nil => cases hm
  | cons first rest ih =>
    cases i with
    | zero =>
      cases hm
      exact ⟨_,rfl,sends_send w _⟩
    | succ i => exact ih (w.send first).2 hm

theorem send_cases (w : FrameWriter) (m : Message) :
    (w.send m).1 = .ok (w.lastSequence + 1) ∧ (w.send m).2.lastSequence = w.lastSequence + 1 ∨
      ∃ e, (w.send m).1 = .error e ∧ (w.send m).2.lastSequence = w.lastSequence := by
  cases hf : m.frame (w.lastSequence + 1) with
  | error e =>
    rw [send_of_error hf]
    exact .inr ⟨e,rfl,rfl⟩
  | ok f =>
    obtain ⟨_,outcome,s',_,_,_,hs⟩ := send_of_frame hf
    rw [hs]
    cases outcome with
    | ok u => exact .inl ⟨rfl,rfl⟩
    | error e => exact .inr ⟨e,rfl,rfl⟩

/-- The frames that were sent whole are numbered one after another. -/
theorem sequences_sendAll (w : FrameWriter) (messages : List Message) {k : Nat} {sequence : UInt8}
    (hk : ((w.sendAll messages).1.filterMap Except.toOption)[k]? = some sequence) :
    sequence.toNat = (w.lastSequence.toNat + (k + 1)) % 256 := by
  induction messages generalizing w k with
  | nil => simp [sendAll] at hk
  | cons m rest ih =>
    have hone : (w.lastSequence + 1).toNat = (w.lastSequence.toNat + 1) % 256 := by simp
    simp only [sendAll] at hk
    obtain ⟨hok,hlast⟩ | ⟨e,he,hlast⟩ := w.send_cases m
    · rw [hok,List.filterMap_cons_some (f := Except.toOption) rfl] at hk
      cases k with
      | zero =>
        cases hk
        exact hone
      | succ k =>
        have hrest := ih (w.send m).2 hk
        rw [hlast,hone] at hrest
        omega
    · rw [he,List.filterMap_cons_none (f := Except.toOption) rfl] at hk
      have hrest := ih (w.send m).2 hk
      rwa [hlast] at hrest

/-- Messages sent through a new writer, whatever its stream answers. -/
theorem sendAll_ofStream (stream : Stream) (messages : List Message) :
    let w := ofStream stream
    let results := (w.sendAll messages).1
    let reached := fun i => (w.sendAll (messages.take i)).2
    results.length = messages.length ∧
      (∀ i m, messages[i]? = some m → ∃ result, results[i]? = some result ∧
        Sends (reached i) m result (reached (i + 1))) ∧
      ∀ k sequence, (results.filterMap Except.toOption)[k]? = some sequence →
        sequence.toNat = (k + 1) % 256 := by
  intro w results reached
  refine ⟨w.length_sendAll messages,fun i m hm => w.sends_sendAll messages hm,?_⟩
  intro k sequence hk
  rw [w.sequences_sendAll messages hk]
  simp [w,ofStream]

end FrameWriter

end RemotePyMite
