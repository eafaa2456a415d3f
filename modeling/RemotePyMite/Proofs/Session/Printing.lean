import RemotePyMite.Proofs.Session.History
import RemotePyMite.Proofs.Session.Triple

/-! # Printed lines

The text of all printing messages, put together, is cut at its line feeds: what is behind the last of them
waits for the rest of its line, and the lines in front are queued until they are asked for.  Each message
that comes in and each call keep to this (`Lossless`), so the lines are those of the text, however it came
in pieces and however it was asked for (`listen_lossless`).
-/
namespace RemotePyMite

/-- What a thread has printed at once. -/
structure Printed where
  thread : UInt64
  text : Bytes

namespace Message

/-- The bytes of a machine word once the target has sent a message, if they were `width` before. -/
def wordSizeAfter (width : Nat) : Message → Nat
  | .sync p => if p.wordSize = 0 then 4 else p.wordSize.toNat
  | _ => width

/-- What a message prints where a machine word has `width` bytes. -/
def printed (width : Nat) : Message → List Printed
  | .threadPrintItem print => [⟨print.address width,print.text width⟩]
  | .threadPrintExpr print => [⟨print.address width,print.text width⟩]
  | _ => []

/-- What messages print one after another, each read with the word size in force. -/
def printedAll (width : Nat) : List Message → List Printed
  | [] => []
  | m :: rest => m.printed width ++ printedAll (m.wordSizeAfter width) rest

end Message

namespace SessionState

theorem splitOn_eq (text : Bytes) :
    text.splitOn 0x0A = (splitLines text).1 ++ [(splitLines text).2] := by
  induction text with
  | nil => rfl
  | cons b rest ih =>
    rw [List.splitOn] at ih ⊢
    rw [List.splitOnP_cons_eq_if_modifyHead,ih,splitLines]
    rcases splitLines rest with ⟨_ | ⟨line,more⟩,last⟩ <;> by_cases hb : b = 0x0A <;> simp [hb]

theorem length_splitLines (text : Bytes) : (splitLines text).1.length = text.count 0x0A := by
  induction text with
  | nil => rfl
  | cons b rest ih =>
    rw [splitLines,List.count_cons,← ih]
    rcases splitLines rest with ⟨_ | ⟨line,more⟩,last⟩ <;> by_cases hb : b = 0x0A <;> simp [hb]

theorem notMem_splitLines (text : Bytes) : 0x0A ∉ (splitLines text).2 := by
  induction text with
  | nil => exact List.not_mem_nil
  | cons b rest ih =>
    rw [splitLines]
    generalize splitLines rest = cut at ih
    obtain ⟨_ | ⟨line,more⟩,last⟩ := cut <;> by_cases hb : b = 0x0A <;>
      simp_all [eq_comm]

/-- The end of a text without its lines goes on with the next text. -/
theorem splitLines_append_eq (front text : Bytes) :
    splitLines (front ++ text) =
      ((splitLines front).1 ++ (splitLines ((splitLines front).2 ++ text)).1,
        (splitLines ((splitLines front).2 ++ text)).2) := by
  induction front with
  | nil => rfl
  | cons b rest ih =>
    rw [List.cons_append,splitLines.eq_2 b (rest ++ text),ih,splitLines.eq_2 b rest]
    generalize splitLines rest = cut
    obtain ⟨_ | ⟨line,more⟩,last⟩ := cut <;> by_cases hb : b = 0x0A <;>
      simp [hb,splitLines.eq_2]

/-- A text goes on the line that has been begun. -/
theorem state_onPrint {s : SessionState} (hs : 0x0A ∉ s.printBuffer) (print : ThreadPrint) :
    let cut := splitLines (s.printBuffer.reverse ++ print.text s.wordSize)
    (s.onPrint print).state = { s with
      printBuffer := cut.2.reverse
      output := s.output ++
        cut.1.map fun line => ⟨print.address s.wordSize,Utf8.decode line⟩ } := by
  have hfront : 0x0A ∉ s.printBuffer.reverse := by rwa [List.mem_reverse]
  rw [splitLines_append hfront,onPrint]
  rcases splitLines (print.text s.wordSize) with ⟨_ | ⟨line,more⟩,last⟩ <;> simp

/-- Messages that print nothing leave what was printed as it is. -/
theorem printing_receive (s : SessionState) {m : Message} (hm : m.printed s.wordSize = []) :
    (s.receive m).state.printBuffer = s.printBuffer ∧ (s.receive m).state.output = s.output := by
  cases m with
  | threadPrintItem print => cases hm
  | threadPrintExpr print => cases hm
  | threadList list =>
    simp only [receive,onThreadList,dropOutstanding]
    split
    · split <;> exact ⟨rfl,rfl⟩
    · exact ⟨rfl,rfl⟩
  | memList list =>
    simp only [receive,onMemoryList]
    split <;> exact ⟨rfl,rfl⟩
  | _ => exact ⟨rfl,rfl⟩

theorem wordSize_receive (s : SessionState) (m : Message) :
    (s.receive m).state.wordSize = m.wordSizeAfter s.wordSize := by
  rcases handshake_cases m with ⟨p,rfl⟩ | rfl | ⟨hs,ha⟩
  · rfl
  · rfl
  · have hkept := (s.handshake_receive hs ha).2.2
    rw [wordSize,hkept,Message.wordSizeAfter]
    · rfl
    · exact hs

/-- What was printed was returned, is queued or waits for the rest of its line. -/
structure Lossless (prints : List Printed) (taken : List OutputLine) (s : SessionState) : Prop where
  buffer_eq : s.printBuffer.reverse = (splitLines (prints.flatMap Printed.text)).2
  texts_eq : (taken ++ s.output).map OutputLine.text =
    (splitLines (prints.flatMap Printed.text)).1.map Utf8.decode
  threads_eq : (taken ++ s.output).map OutputLine.thread =
    prints.flatMap fun print => List.replicate (print.text.count 0x0A) print.thread

variable {prints : List Printed} {taken : List OutputLine} {s : SessionState}

theorem lossless_initial : Lossless [] [] .initial :=
  ⟨rfl,rfl,rfl⟩

theorem Lossless.notMem (h : Lossless prints taken s) : 0x0A ∉ s.printBuffer := by
  rw [← List.mem_reverse,h.buffer_eq]
  exact notMem_splitLines _

theorem Lossless.print (h : Lossless prints taken s) (print : ThreadPrint) :
    Lossless (prints ++ [⟨print.address s.wordSize,print.text s.wordSize⟩]) taken
      (s.onPrint print).state := by
  have hcut := splitLines_append_eq (prints.flatMap Printed.text) (print.text s.wordSize)
  rw [← h.buffer_eq] at hcut
  have hcount : (splitLines (s.printBuffer.reverse ++ print.text s.wordSize)).1.length =
      (print.text s.wordSize).count 0x0A := by
    rw [length_splitLines,List.count_append,List.count_eq_zero.mpr (by simpa using h.notMem),
      Nat.zero_add]
  rw [state_onPrint h.notMem]
  refine ⟨?_,?_,?_⟩
  · simp only [List.flatMap_append,List.flatMap_singleton,hcut,List.reverse_reverse]
  · rw [List.flatMap_append,List.flatMap_singleton,hcut,← List.append_assoc,List.map_append,
      h.texts_eq,List.map_append,List.map_map]
    rfl
  · rw [← List.append_assoc,List.map_append,h.threads_eq,List.flatMap_append,
      List.flatMap_singleton,List.map_map,← hcount]
    exact congrArg _ List.map_const'

theorem Lossless.receive (h : Lossless prints taken s) (m : Message) :
    Lossless (prints ++ m.printed s.wordSize) taken (s.receive m).state := by
  by_cases hm : m.printed s.wordSize = []
  · obtain ⟨hbuffer,houtput⟩ := s.printing_receive hm
    rw [hm,List.append_nil]
    exact ⟨hbuffer ▸ h.buffer_eq,houtput ▸ h.texts_eq,houtput ▸ h.threads_eq⟩
  · cases m with
    | threadPrintItem print => exact h.print print
    | threadPrintExpr print => exact h.print print
    | _ => exact absurd rfl hm

/-- Lines that are handed out in order are still the first. -/
theorem Lossless.take (h : Lossless prints taken s) {lines rest : List OutputLine}
    (ho : s.output = lines ++ rest) : Lossless prints (taken ++ lines) { s with output := rest } := by
  obtain ⟨hbuffer,htexts,hthreads⟩ := h
  rw [ho,← List.append_assoc] at htexts hthreads
  exact ⟨hbuffer,htexts,hthreads⟩

end SessionState

namespace Session
open SessionState

/-- A message comes in, or the host asks for lines. -/
inductive Listening where
  | handle (message : Message)
  | drain
  | next

namespace Listening

/-- The session after it, and the lines that the host has got. -/
def run (s : Session) : Listening → Session × List OutputLine
  | .handle message => ({ s with channel := s.channel.dispatch receiver message },[])
  | .drain => match drainOutput.run s with
    | (.ok lines,s') => (s',lines)
    | (.error _,s') => (s',[])
  | .next => match nextOutput.run s with
    | (.ok line?,s') => (s',line?.toList)
    | (.error _,s') => (s',[])

def message? : Listening → Option Message
  | .handle message => some message
  | .drain | .next => none

end Listening

/-- The session after all of this, and the lines that the host has got. -/
def listen (s : Session) : List Listening → Session × List OutputLine
  | [] => (s,[])
  | step :: rest =>
    let (s',lines) := step.run s
    let (last,more) := listen s' rest
    (last,lines ++ more)

variable {prints : List Printed} {taken : List OutputLine} {s : Session}

theorem run_drainOutput (s : Session) : drainOutput.run s =
    (.ok s.state.output,{ s with channel := s.channel.change receiver .takeLines }) :=
  rfl

/-- If a line is returned it was the first in the queue. -/
theorem triple_nextOutput (prints : List Printed) (taken : List OutputLine) (width : Nat) :
    Action.Triple (fun s => Lossless prints taken s.state ∧ s.state.wordSize = width) nextOutput
      (fun line? s => Lossless prints (taken ++ line?.toList) s.state ∧ s.state.wordSize = width)
      (fun _ s => Lossless prints taken s.state ∧ s.state.wordSize = width) := by
  refine (Action.Triple.await fun _ _ hs _ _ => hs).bind fun line? => ?_
  cases line? with
  | none =>
    refine Action.Triple.pure fun s hs => ?_
    rw [Option.toList_none,List.append_nil]
    exact hs.1
  | some line =>
    have htake : Action.Triple (fun s => (Lossless prints taken s.state ∧ s.state.wordSize = width) ∧
        some line = s.state.output.head?) (Action.update .takeLine)
        (fun _ s => Lossless prints (taken ++ [line]) s.state ∧ s.state.wordSize = width)
        (fun _ s => Lossless prints taken s.state ∧ s.state.wordSize = width) := by
      rintro s ⟨⟨h,hw⟩,hline⟩
      obtain ⟨rest,ho⟩ := List.head?_eq_some_iff.mp hline.symm
      refine ⟨?_,hw⟩
      change Lossless prints (taken ++ [line]) { s.state with output := s.state.output.tail }
      rw [ho]
      exact h.take ho
    exact htake.bind fun _ => Action.Triple.pure fun _ hs => hs

theorem lossless_run (h : Lossless prints taken s.state) (step : Listening) :
    Lossless (prints ++ (step.message?.map (Message.printed s.state.wordSize)).getD [])
      (taken ++ (step.run s).2) (step.run s).1.state ∧
    (step.run s).1.state.wordSize =
      (step.message?.map (Message.wordSizeAfter s.state.wordSize)).getD s.state.wordSize := by
  cases step with
  | handle message =>
    have hstate : (Listening.run s (.handle message)).1.state = (s.state.receive message).state :=
      (Channel.dispatch_cases receiver s.channel message).1
    rw [hstate]
    refine ⟨?_,s.state.wordSize_receive message⟩
    rw [Listening.run,List.append_nil]
    exact h.receive message
  | drain =>
    rw [Listening.run,run_drainOutput]
    refine ⟨?_,rfl⟩
    change Lossless (prints ++ []) (taken ++ s.state.output) { s.state with output := [] }
    rw [List.append_nil]
    exact h.take (List.append_nil _).symm
  | next =>
    have hr := triple_nextOutput prints taken s.state.wordSize s ⟨h,rfl⟩
    simp only [Listening.run,Listening.message?,Option.map_none,Option.getD_none,List.append_nil]
    split at hr
    · next hrun =>
      rw [hrun]
      exact hr
    · next hrun =>
      rw [hrun,List.append_nil]
      exact hr

theorem lossless_listen (steps : List Listening) (h : Lossless prints taken s.state) :
    Lossless (prints ++ Message.printedAll s.state.wordSize (steps.filterMap Listening.message?))
      (taken ++ (listen s steps).2) (listen s steps).1.state := by
  induction steps generalizing s prints taken with
  | nil => simpa [Session.listen,Message.printedAll] using h
  | cons step rest ih =>
    obtain ⟨hstep,hsize⟩ := lossless_run h step
    have hrest := ih hstep
    rw [hsize,List.append_assoc,List.append_assoc] at hrest
    rw [Session.listen]
    cases hm : step.message? with
    | none =>
      rw [hm] at hrest
      rw [List.filterMap_cons_none hm]
      exact hrest
    | some m =>
      rw [hm] at hrest
      rw [List.filterMap_cons_some hm,Message.printedAll]
      exact hrest

/-- Whatever comes in, and whenever the host asks for lines, those that it has got and those that it could
get are, in order, the lines of all text that was printed, and what is behind the last line feed waits.
A line is ascribed to the thread whose message ended it. -/
theorem listen_lossless (link : Link) (retries : Nat) (steps : List Listening) :
    let (s,got) := listen (ofLink link retries) steps
    let prints := Message.printedAll 4 (steps.filterMap Listening.message?)
    let lines := got ++ s.state.output
    ∃ rows, (prints.flatMap Printed.text).splitOn 0x0A = rows ++ [s.state.printBuffer.reverse] ∧
      lines.map OutputLine.text = rows.map Utf8.decode ∧
      (lines.map OutputLine.thread =
        prints.flatMap fun print => List.replicate (print.text.count 0x0A) print.thread) ∧
      0x0A ∉ s.state.printBuffer := by
  have h := lossless_listen (s := ofLink link retries) steps lossless_initial
  refine ⟨(splitLines _).1,?_,h.texts_eq,h.threads_eq,h.notMem⟩
  rw [h.buffer_eq]
  exact splitOn_eq _

end Session

end RemotePyMite
