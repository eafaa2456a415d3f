import RemotePyMite.Command.Line
import RemotePyMite.Command.Task

/-! # Doing a command

A command is done in surroundings that it can ask for the bytes of a file and for a link.
It looks at its file first, then at its options for the target, and then opens the link.
The name under which the host speaks to a target is also what it says of its version.
-/
namespace RemotePyMite

/-- An open link, with the words that describe it. -/
structure Connection where
  description : String
  link : Link

/-- What a command finds around it. -/
structure Surroundings where
  readFile : String → Except IoError Bytes
  /-- Opens a link to a program or a socket. -/
  connect : LinkConfig → Except LinkError Connection

/-- What a command leaves behind. -/
structure Outcome where
  printed : List String
  failure : Option Failure
  /-- How the target was reached and the session as it was left, if one was opened. -/
  session : Option (LinkConfig × Session)

namespace Outcome

def failed (failure : Failure) : Outcome := ⟨[], some failure, none⟩

def ofLines (lines : List String) : Outcome := ⟨lines, none, none⟩

def status (o : Outcome) : ExitStatus :=
  match o.failure with
  | none => .success
  | some failure => failure.status

def text (o : Outcome) : String :=
  String.join (o.printed.map fun line => line ++ "\n")

end Outcome

namespace Surroundings

def openLink (w : Surroundings) : LinkConfig → Except LinkError Connection
  | .serial port _ => .error (LinkConfig.unsupportedPort port)
  | config => w.connect config

def image (w : Surroundings) (path : String) : Except Failure Bytes :=
  match w.readFile path with
  | .ok bytes => .ok bytes
  | .error e => .error (.ofIo s!"reading {path}" e)

def attempt (connection : Connection) (retries : Nat) (task : String → Task Unit) :
    Except Failure Unit × TaskState :=
  (task connection.description).run ⟨.ofLink connection.link retries, []⟩

/-- Does a task up to its first wait, when nothing has been heard of the target: no wait
can begin. -/
def attemptUnheard (connection : Connection) (task : String → Task Unit) :
    Except Failure Unit × TaskState :=
  match attempt { connection with link := connection.link.retarget .mute } 1 task with
  | (.error ⟨.timeout, _⟩, s) => (.error .endlessWait, s)
  | other => other

def withTarget (w : Surroundings) (options : TargetOptions) (task : String → Task Unit) :
    Outcome :=
  match options.settings with
  | .error e => .failed e.failure
  | .ok settings =>
    match w.openLink options.link with
    | .error e => .failed (.ofSession "connect failed" (.link e))
    | .ok connection =>
      let (result, s) :=
        if settings.timeout.fitsClock then attempt connection settings.retries task
        else attemptUnheard connection task
      { printed := s.printed.reverse
        failure := match result with
          | .ok () => none
          | .error failure => some failure
        session := some (options.link, s.session) }

def dump (w : Surroundings) (format : OutputFormat) (path : String) : Outcome :=
  match w.image path with
  | .error failure => .failed failure
  | .ok image =>
    match Value.decodeAll image with
    | .error e => .failed (.ofValue s!"decoding {path}" e)
    | .ok value => .ofLines ((Report.dump value image.length).lines format)

def perform (w : Surroundings) (format : OutputFormat) : Command → Outcome
  | .sync target => w.withTarget target (Task.sync format)
  | .threads target => w.withTarget target fun _ => Task.threads format
  | .memory target => w.withTarget target fun _ => Task.memory format
  | .autorun target replacement => w.withTarget target fun _ => Task.autorun format replacement
  | .start target moduleName => w.withTarget target fun _ => Task.start format moduleName
  | .load target moduleName path starts =>
    match w.image path with
    | .error failure => .failed failure
    | .ok image => w.withTarget target fun _ => Task.load format moduleName path image starts
  | .monitor target count => w.withTarget target fun _ => Task.monitor format count
  | .dump path => w.dump format path
  | .version => .ofLines [hostName]

/-- Does what a command line asks for; `fallback` is the form of an answer if none is
chosen. -/
def answer (w : Surroundings) (fallback : OutputFormat) : Request → Outcome
  | .version => .ofLines [hostName]
  | .invocation i => w.perform (i.format.getD fallback) i.command

end Surroundings

end RemotePyMite
