import RemotePyMite.Command.Run

/-! # The program

Looks at the words of the command line, the environment and the file that the command
names, and prints what comes of it.  Links to targets are not opened here.
-/
namespace RemotePyMite

def targetVariable : String := "RPPLINK_TARGET"

/-- An error that was reported while a file was read. -/
def ioErrorOf : IO.Error → IoError
  | .noFileOrDirectory .. => .ofSystem .noSuchFile
  | .permissionDenied .. => .ofSystem .permissionDenied
  | .inappropriateType .. => .ofSystem .isDirectory
  | _ => .ofKind .other

def readImage (path : String) : IO (Except IoError Bytes) := do
  try
    return .ok (← IO.FS.readBinFile path).toList
  catch e => return .error (ioErrorOf e)

/-- Does what is asked for and gives the number of the status. -/
def serve (request : Request) : IO Nat := do
  let image ← match request with
    | .invocation ⟨command, _⟩ =>
      match command.imagePath? with
      | some path => readImage path
      | none => pure (.error (.ofSystem .noSuchFile))
    | .version => pure (.error (.ofSystem .noSuchFile))
  let surroundings : Surroundings :=
    { readFile := fun _ => image
      connect := fun config => .error (.unsupported s!"{config.text} cannot be opened here") }
  let output ← IO.getStdout
  let outcome := surroundings.answer (if ← output.isTty then .table else .json) request
  output.putStr outcome.text
  if let some failure := outcome.failure then IO.eprintln failure.report
  return outcome.status.code

end RemotePyMite

/-- Runs the program with the words of the command line. -/
def main (words : List String) : IO UInt32 := do
  match RemotePyMite.CommandLine.read (← IO.getEnv RemotePyMite.targetVariable) words with
  | .ok request => return UInt32.ofNat (← RemotePyMite.serve request)
  | .error e =>
    IO.eprintln s!"error: {e.message}"
    return UInt32.ofNat RemotePyMite.ExitStatus.misuse.code
