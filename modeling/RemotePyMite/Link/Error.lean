import RemotePyMite.Link.IoError

/-! # What can go wrong with a link -/
namespace RemotePyMite

inductive ChildStream where
  | input
  | output
  deriving DecidableEq, Repr

def ChildStream.name : ChildStream → String
  | .input => "stdin"
  | .output => "stdout"

/-- Why a link could not be opened or used. -/
inductive LinkError where
  | spawn (program : String) (error : IoError)
  | missingPipe (program : String) (stream : ChildStream)
  | openPort (port reason : String)
  | connect (path : String) (error : IoError)
  | io (error : IoError)
  | unsupported (what : String)
  /-- The reading half was handed out before. -/
  | readerTaken
  deriving DecidableEq, Repr

def LinkError.message : LinkError → String
  | .spawn program error => s!"failed to spawn target {program}: {error.message}"
  | .missingPipe program stream => s!"target {program} has no piped {stream.name}"
  | .openPort port reason => s!"failed to open serial port {port}: {reason}"
  | .connect path error => s!"failed to connect to {path}: {error.message}"
  | .io error => s!"transport I/O error: {error.message}"
  | .unsupported what => s!"unsupported operation: {what}"
  | .readerTaken => "link reader already taken"

end RemotePyMite
