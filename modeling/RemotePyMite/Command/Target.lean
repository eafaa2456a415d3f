import RemotePyMite.Command.Failure
import RemotePyMite.Link.Config
import RemotePyMite.Text.Blank
import RemotePyMite.Text.Numeral

/-! # Which target, and how patiently

The options by which a user says how to reach a target and how long and how often to try.
A socket goes before a serial port, and that before a program.
-/
namespace RemotePyMite

/-- Why the options for a target make no sense. -/
inductive SettingError where
  | noRetries
  | emptyTimeout
  | zeroTimeout
  | badTimeout (text : String)
  deriving DecidableEq, Repr

namespace SettingError

def message : SettingError → String
  | .noRetries => "retries must be greater than zero"
  | .emptyTimeout => "timeout must not be empty"
  | .zeroTimeout => "timeout must be greater than zero"
  | .badTimeout text => s!"invalid timeout value: {text}"

/-- A command whose options make no sense fails. -/
def failure (error : SettingError) : Failure :=
  ⟨.usage, error.message⟩

end SettingError

structure Timeout where
  milliseconds : Nat
  deriving DecidableEq, Repr

namespace Timeout

/-- The seconds that the clock can count. -/
def clockRange : Nat := Nat.pow 2 63

/-- The seconds that the clock of a machine has counted, at least, before a program is
started on it. -/
def leastUptime : Nat := 60

/-- Whether the clock reaches to the end of a wait that begins now. -/
def fitsClock (t : Timeout) : Bool :=
  t.milliseconds / 1000 + leastUptime < clockRange

/-- The unit at the end of a text, in milliseconds, and what stands in front of it.  A
text without a unit counts seconds. -/
def splitUnit (text : List Char) : List Char × Nat :=
  match text.reverse with
  | 's' :: 'm' :: digits => (digits.reverse, 1)
  | 's' :: digits => (digits.reverse, 1000)
  | _ => (text, 1000)

/-- The greatest number a span of time can be given as. -/
def maxCount : Nat := UInt64.size - 1

/-- Reads a positive number with its unit, such as `3s` or `500ms`, blanks around it
allowed. -/
def ofText (text : String) : Except SettingError Timeout :=
  let trimmed := Blank.trim text.toList
  if trimmed.isEmpty then .error .emptyTimeout
  else
    let (digits, unit) := splitUnit trimmed
    match Numeral.argument? maxCount digits with
    | none => .error (.badTimeout (String.ofList trimmed))
    | some 0 => .error .zeroTimeout
    | some count => .ok ⟨count * unit⟩

end Timeout

/-- How patiently a session talks to its target. -/
structure SessionSettings where
  timeout : Timeout
  retries : Nat
  poll : Timeout
  deriving DecidableEq, Repr

/-- What a user says about a target. -/
structure TargetOptions where
  program : Option String
  port : Option String
  baudRate : Nat
  socket : Option String
  timeout : String
  retries : Nat
  deriving DecidableEq, Repr

namespace TargetOptions

def pollInterval : Timeout := ⟨50⟩

def link (o : TargetOptions) : LinkConfig :=
  match o.socket, o.port, o.program with
  | some path, _, _ => .socket path
  | none, some port, _ => .serial port o.baudRate
  | none, none, some program => .pipe program
  | none, none, none => .default

def settings (o : TargetOptions) : Except SettingError SessionSettings :=
  if o.retries = 0 then .error .noRetries
  else
    match Timeout.ofText o.timeout with
    | .error e => .error e
    | .ok timeout => .ok ⟨timeout, o.retries, pollInterval⟩

end TargetOptions

end RemotePyMite
