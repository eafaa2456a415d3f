import RemotePyMite.Frame.OfMessage

/-! # Writing frames to a stream

A stream answers each call with what it makes of it: a write takes some of the bytes or
fails, a flush works or fails.  What a stream will answer is given in advance; past the
end of that everything works.  Any run of a writer sees finitely many answers, so nothing
is lost by that.
-/
namespace RemotePyMite

/-- What a stream makes of a write. -/
inductive WriteAnswer where
  /-- It takes no more than so many of the bytes. -/
  | takes (n : Nat)
  | fails (kind : IoErrorKind)
  deriving DecidableEq, Repr

inductive FlushAnswer where
  | works
  | fails (kind : IoErrorKind)
  deriving DecidableEq, Repr

/-- A stream: the answers it will give, what it took, and how often it was called. -/
structure Stream where
  writes : List WriteAnswer
  flushes : List FlushAnswer
  taken : Bytes
  writeCalls : Nat
  flushCalls : Nat
  deriving DecidableEq, Repr

namespace Stream

def ofAnswers (writes : List WriteAnswer) (flushes : List FlushAnswer) : Stream :=
  ⟨writes, flushes, [], 0, 0⟩

/-- Errors after which a call is made again. -/
def isTransient (kind : IoErrorKind) : Bool :=
  kind = .interrupted || kind = .wouldBlock

/-- Writes all of the bytes, in as many calls as it takes. -/
def writeAll (s : Stream) (bytes : Bytes) : Except FrameError Unit × Stream :=
  if bytes.isEmpty then (.ok (), s)
  else
    match _h : s.writes with
    | [] => (.ok (), { s with taken := s.taken ++ bytes, writeCalls := s.writeCalls + 1 })
    | .fails kind :: writes =>
      let s' := { s with writes, writeCalls := s.writeCalls + 1 }
      if isTransient kind then writeAll s' bytes else (.error (.io (.ofKind kind)), s')
    | .takes n :: writes =>
      let s' := { s with writes, writeCalls := s.writeCalls + 1, taken := s.taken ++ bytes.take n }
      if n = 0 then (.error .connectionClosed, s') else writeAll s' (bytes.drop n)
termination_by s.writes.length
decreasing_by all_goals simp [_h]

def flush (s : Stream) : Except FrameError Unit × Stream :=
  match _h : s.flushes with
  | [] => (.ok (), { s with flushCalls := s.flushCalls + 1 })
  | .works :: flushes => (.ok (), { s with flushes, flushCalls := s.flushCalls + 1 })
  | .fails kind :: flushes =>
    let s' := { s with flushes, flushCalls := s.flushCalls + 1 }
    if isTransient kind then flush s' else (.error (.io (.ofKind kind)), s')
termination_by s.flushes.length
decreasing_by simp [_h]

end Stream

/-- A stream for frames.  They are numbered from one, and after 255 from zero. -/
structure FrameWriter where
  stream : Stream
  /-- The number of the last frame that was sent whole. -/
  lastSequence : UInt8
  deriving DecidableEq, Repr

namespace FrameWriter

def ofStream (stream : Stream) : FrameWriter := ⟨stream, 0⟩

/-- Sends a message as a frame and gives the number of the frame.  A frame that was not
sent whole leaves its number to the next. -/
def send (w : FrameWriter) (message : Message) : Except FrameError UInt8 × FrameWriter :=
  let sequence := w.lastSequence + 1
  match message.frame sequence with
  | .error e => (.error e, w)
  | .ok frame =>
    match w.stream.writeAll frame.bytes with
    | (.error e, stream) => (.error e, { w with stream })
    | (.ok (), stream) =>
      match stream.flush with
      | (.error e, stream) => (.error e, { w with stream })
      | (.ok (), stream) => (.ok sequence, ⟨stream, sequence⟩)

def flush (w : FrameWriter) : Except FrameError Unit × FrameWriter :=
  let (result, stream) := w.stream.flush
  (result, { w with stream })

end FrameWriter

end RemotePyMite
