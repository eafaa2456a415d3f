/-! # Errors of input and output

An error has a kind, by which a caller decides what to do, and a text.  The operating
system gives its own text and a number with it.
-/
namespace RemotePyMite

/-- The kinds of error a caller tells apart. -/
inductive IoErrorKind where
  | interrupted
  | wouldBlock
  | brokenPipe
  | timedOut
  | notFound
  | permissionDenied
  | connectionRefused
  | connectionReset
  | unexpectedEnd
  | invalidInput
  | isDirectory
  | notDirectory
  | other
  deriving DecidableEq, Repr

def IoErrorKind.message : IoErrorKind → String
  | .interrupted => "operation interrupted"
  | .wouldBlock => "operation would block"
  | .brokenPipe => "broken pipe"
  | .timedOut => "timed out"
  | .notFound => "entity not found"
  | .permissionDenied => "permission denied"
  | .connectionRefused => "connection refused"
  | .connectionReset => "connection reset"
  | .unexpectedEnd => "unexpected end of file"
  | .invalidInput => "invalid input parameter"
  | .isDirectory => "is a directory"
  | .notDirectory => "not a directory"
  | .other => "other error"

/-- Errors that the operating system reports. -/
inductive SystemError where
  | noSuchFile
  | noSuchDevice
  | permissionDenied
  | notDirectory
  | isDirectory
  | nameTooLong
  | connectionRefused
  deriving DecidableEq, Repr

namespace SystemError

def code : SystemError → Nat
  | .noSuchFile => 2
  | .noSuchDevice => 6
  | .permissionDenied => 13
  | .notDirectory => 20
  | .isDirectory => 21
  | .nameTooLong => 36
  | .connectionRefused => 111

def words : SystemError → String
  | .noSuchFile => "No such file or directory"
  | .noSuchDevice => "No such device or address"
  | .permissionDenied => "Permission denied"
  | .notDirectory => "Not a directory"
  | .isDirectory => "Is a directory"
  | .nameTooLong => "File name too long"
  | .connectionRefused => "Connection refused"

def kind : SystemError → IoErrorKind
  | .noSuchFile => .notFound
  | .noSuchDevice => .other
  | .permissionDenied => .permissionDenied
  | .notDirectory => .notDirectory
  | .isDirectory => .isDirectory
  | .nameTooLong => .other
  | .connectionRefused => .connectionRefused

end SystemError

/-- An error of input or output. -/
inductive IoError where
  | ofKind (kind : IoErrorKind)
  | ofSystem (error : SystemError)
  /-- The path of a socket does not fit into the address of one. -/
  | longSocketPath
  deriving DecidableEq, Repr

namespace IoError

def kind : IoError → IoErrorKind
  | .ofKind kind => kind
  | .ofSystem error => error.kind
  | .longSocketPath => .invalidInput

def message : IoError → String
  | .ofKind kind => kind.message
  | .ofSystem error => s!"{error.words} (os error {error.code})"
  | .longSocketPath => "path must be shorter than SUN_LEN"

end IoError

end RemotePyMite
