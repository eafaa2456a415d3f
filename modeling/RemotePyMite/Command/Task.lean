import RemotePyMite.Command.Dump
import RemotePyMite.Session.Calls

/-! # Tasks

A task is what a command does while it has a session: it makes calls, prints lines and may
fail.  What was printed before a failure stays printed.
-/
namespace RemotePyMite

/-- The session of a task, and the lines it has printed, the latest first. -/
structure TaskState where
  session : Session
  printed : List String

abbrev Task := ExceptT Failure (StateM TaskState)

namespace Task

def run {α : Type} (task : Task α) (s : TaskState) : Except Failure α × TaskState :=
  ExceptT.run task s

def print (format : OutputFormat) (report : Report) : Task Unit :=
  modify fun s => { s with printed := (report.lines format).reverse ++ s.printed }

/-- Makes a call; if that fails, so does the task, and `context` says at what. -/
def call {α : Type} (context : String) (action : Action α) : Task α := do
  let s ← get
  let (result, session) := action.run s.session
  set { s with session }
  match result with
  | .ok a => return a
  | .error e => throw (.ofSession context e)

/-- The parameters the target told last. -/
def parameters : Task (Option SyncParameters) :=
  return (← get).session.state.parameters

/-- The address of a thread, as wide as the words of the target are. -/
def address (thread : UInt64) : Task String := do
  let width := match ← parameters with
    | some p => p.wordSize.toNat
    | none => SessionState.defaultWordSize
  return Numeral.address thread width

def disconnect : Task Unit :=
  call "disconnect failed" Session.terminate

/-- Does the handshake and tells the parameters of the link. -/
def sync (format : OutputFormat) (description : String) : Task Unit := do
  call "sync failed" Session.synchronize
  match ← parameters with
  | none => throw ⟨.failure, "target sent no link parameters"⟩
  | some p => print format (.sync description p)
  disconnect

def threads (format : OutputFormat) : Task Unit := do
  let found ← call "reading thread list failed" Session.readThreadList
  print format (.threads (← found.mapM address))
  disconnect

def memory (format : OutputFormat) : Task Unit := do
  print format (.memory (← call "reading memory spaces failed" Session.readMemoryMap))
  disconnect

/-- Lists the modules that the target starts by itself.  New ones are sent first, and what
is listed is what the target then has. -/
def autorun (format : OutputFormat) (replacement : Option (List String)) : Task Unit := do
  if let some names := replacement then
    call "updating autorun list failed" do
      Session.sendAutorunList names
      Session.waitOutstanding
  let names ← call "reading autorun list failed" Session.readAutorunList
  print format (.autorun replacement.isSome names)
  disconnect

/-- Starts a thread and waits until the target has acknowledged it. -/
def startThread (moduleName : String) : Task Unit :=
  call "starting thread failed" do
    Session.startThread moduleName
    Session.waitOutstanding

def start (format : OutputFormat) (moduleName : String) : Task Unit := do
  startThread moduleName
  print format (.start moduleName)
  disconnect

/-- Loads a module image, and starts the module if asked. -/
def load (format : OutputFormat) (moduleName imagePath : String) (image : Bytes)
    (starts : Bool) : Task Unit := do
  call "loading module failed" (Session.addModule moduleName image .precompiled)
  if starts then startThread moduleName
  print format (.load moduleName imagePath image.length starts)
  disconnect

/-- Prints what the threads print, at most so many lines.  When nothing more comes, the
user interrupts. -/
def watch (format : OutputFormat) : Nat → Task Unit
  | 0 => return
  | lines + 1 => do
    match ← call "monitor failed" Session.nextOutput with
    | none => return
    | some line =>
      print format (.outputLine (← address line.thread) line.text)
      watch format lines

/-- Prints what the threads print: so many lines, but at least one, or until interrupted.
The wait behind the last line that has come is what finds a failure of the link. -/
def monitor (format : OutputFormat) (count : Option Nat) : Task Unit := do
  call "sync failed" Session.synchronize
  let waits := (← get).session.state.output.length + 1
  watch format (match count with
    | some lines => min waits (max 1 lines)
    | none => waits)
  disconnect

end Task

end RemotePyMite
