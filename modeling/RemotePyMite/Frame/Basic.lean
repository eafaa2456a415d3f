import RemotePyMite.Bytes
import RemotePyMite.Checksum
import RemotePyMite.Link.IoError
import RemotePyMite.Message.Error

/-! # Frames

A frame is a start byte, a sequence number, a type, the length of the data, the data and
a checksum of all of it, low byte first.
-/
namespace RemotePyMite

/-- Why a frame could not be sent. -/
inductive FrameError where
  /-- The data does not fit into one frame. -/
  | dataTooLong (size max : Nat)
  | message (error : MessageError)
  | io (error : IoError)
  | connectionClosed
  deriving DecidableEq, Repr

def FrameError.text : FrameError → String
  | .dataTooLong size max => s!"frame data too long ({size} bytes, max {max})"
  | .message error => error.message
  | .io error => s!"frame I/O error: {error.message}"
  | .connectionClosed => "connection closed (incomplete frame)"

/-- A frame without what follows from its other parts. -/
structure Frame where
  sequence : UInt8
  kind : UInt8
  data : Bytes
  deriving DecidableEq, Repr

namespace Frame

def startByte : UInt8 := 0xFF

/-- The bytes of a frame that are not data. -/
def overhead : Nat := 6

/-- The most data one frame can hold. -/
def maxData : Nat := 255

/-- The receive buffer of a target that has not told its size. -/
def defaultReceiveBuffer : Nat := 50

/-- The data a frame to such a target can hold. -/
def defaultSegmentSize : Nat := defaultReceiveBuffer - overhead

/-- The data that fills a frame from such a target: a target sends whenever it has a
whole receive buffer of data. -/
def defaultIncomingSegmentSize : Nat := defaultReceiveBuffer

/-- The data a frame can hold for a receive buffer of this size, if any. -/
def segmentSizeFor (receiveBufferSize : UInt8) : Option Nat :=
  if overhead < receiveBufferSize.toNat then some (receiveBufferSize.toNat - overhead) else none

/-- The frame up to its checksum. -/
def body (f : Frame) : Bytes :=
  startByte :: f.sequence :: f.kind :: UInt8.ofNat f.data.length :: f.data

def bytes (f : Frame) : Bytes :=
  f.body ++ Word.littleEndian 2 (Checksum.compute f.body).toNat

/-- The bytes of a frame that can hold its data. -/
def encode (f : Frame) : Except FrameError Bytes :=
  if f.data.length ≤ maxData then .ok f.bytes else .error (.dataTooLong f.data.length maxData)

end Frame

end RemotePyMite
