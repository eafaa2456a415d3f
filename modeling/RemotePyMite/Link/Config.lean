import RemotePyMite.Link.Error

/-! # Ways to a target

A target is a program the host starts, a device at a serial port, or something that
listens on a socket.
-/
namespace RemotePyMite

/-- The program that is started if nothing else is asked for. -/
def defaultProgram : String := "sample/rpm-desktop/main.out"

/-- The speed of a serial port if nothing else is asked for. -/
def defaultBaudRate : Nat := 19200

/-- The way to a target. -/
inductive LinkConfig where
  | pipe (program : String)
  | serial (port : String) (baudRate : Nat)
  | socket (path : String)
  deriving DecidableEq, Repr

namespace LinkConfig

def default : LinkConfig := .pipe defaultProgram

def transportName : LinkConfig → String
  | .pipe _ => "pipe"
  | .serial .. => "serial"
  | .socket _ => "unix-socket"

def text : LinkConfig → String
  | .pipe program => s!"pipe:{program}"
  | .serial port baudRate => s!"serial:{port}@{baudRate}"
  | .socket path => s!"unix:{path}"

/-- The error that takes the place of a link to a serial port: this host has no driver
for one. -/
def unsupportedPort (port : String) : LinkError :=
  .unsupported
    s!"serial port {port} requested but rpplink was built without the \x60serial\x60 feature"

end LinkConfig

/-- The host's side of an open link: whether its reading half was handed out, and whether
it is closed. -/
structure LinkHandle where
  description : String
  readerTaken : Bool
  closed : Bool
  deriving DecidableEq, Repr

namespace LinkHandle

/-- The link over a connected stream. -/
def ofStream : LinkHandle := ⟨"unix-stream", false, false⟩

def takeReader (h : LinkHandle) : Except LinkError LinkHandle :=
  if h.readerTaken then .error .readerTaken else .ok { h with readerTaken := true }

def close (h : LinkHandle) : LinkHandle :=
  { h with closed := true }

/-- The text of a link for those who look for a fault. -/
def debugText (h : LinkHandle) : String :=
  "Link \x7b description: \"" ++ h.description ++ "\", reader_taken: " ++ toString h.readerTaken ++
    ", closed: " ++ toString h.closed ++ " \x7d"

end LinkHandle

end RemotePyMite
