import RemotePyMite.Session.Error

/-! # How a command fails

A command that fails prints an error that says what it was about and why, and ends with a
status for its caller.  The status depends on the innermost cause: an error of input or
output decides by its kind, whatever it is wrapped in.  A program that breaks off reports
that, and no error.
-/
namespace RemotePyMite

inductive ExitStatus where
  | success
  /-- The target does not answer the way it should. -/
  | failure
  /-- The words of the command line make no command. -/
  | misuse
  /-- The link cannot be used. -/
  | link
  | permissionDenied
  | badData
  | usage
  | notFound
  /-- The program broke off. -/
  | crash
  | timeout
  | internal
  deriving DecidableEq, Repr

def ExitStatus.code : ExitStatus → Nat
  | .success => 0
  | .failure => 1
  | .misuse => 2
  | .link => 3
  | .permissionDenied => 50
  | .badData => 60
  | .usage => 64
  | .notFound => 66
  | .crash => 101
  | .timeout => 124
  | .internal => 125

/-- Why a command failed: the status it ends with and the line it prints. -/
structure Failure where
  status : ExitStatus
  message : String
  deriving DecidableEq, Repr

namespace Failure

/-- A wait cannot begin, because the clock does not reach to its end. -/
def endlessWait : Failure :=
  ⟨.crash, "overflow when adding duration to instant"⟩

def report (f : Failure) : String :=
  match f.status with
  | .crash => s!"the program broke off: {f.message}"
  | _ => s!"error: {f.message}"

/-- The first line of an error that is reported, without the sign for its end. -/
def errorLine (f : Failure) : Option String :=
  match f.status with
  | .crash => none
  | _ =>
    let line := f.report.toList.takeWhile (· ≠ '\n')
    some (String.ofList (if line.getLast? = some '\r' then line.dropLast else line))

/-- A failure of what `context` says, with a cause. -/
def about (status : ExitStatus) (context cause : String) : Failure :=
  ⟨status, s!"{context}: {cause}"⟩

def statusOfKind : IoErrorKind → ExitStatus
  | .notFound => .notFound
  | .permissionDenied => .permissionDenied
  | .timedOut | .wouldBlock => .timeout
  | .connectionRefused | .brokenPipe => .failure
  | _ => .internal

def ofIo (context : String) (error : IoError) : Failure :=
  about (statusOfKind error.kind) context error.message

def ofLink (context : String) : LinkError → Failure
  | .spawn _ error | .connect _ error | .io error => ofIo context error
  | error@(.unsupported _) => about .usage context error.message
  | error => about .link context error.message

def ofFrame (context : String) : FrameError → Failure
  | .io error => ofIo context error
  | error@.connectionClosed => about .failure context error.text
  | error => about .badData context error.text

def ofValue (context : String) (error : ValueError) : Failure :=
  about .badData context error.message

def ofSession (context : String) : SessionError → Failure
  | .link error => ofLink context error
  | .frame error => ofFrame context error
  | .value error => ofValue context error
  | error@(.message _) | error@(.image _) => about .badData context error.text
  | error@(.timeout ..) => about .timeout context error.text
  | error@(.channelBroken _) | error@.notConnected => about .failure context error.text

end Failure

end RemotePyMite
