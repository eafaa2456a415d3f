import RemotePyMite.Command.Run
import RemotePyMite.Text.Separated

/-! # A directory as surroundings

A working directory that holds plain files and may hold a socket on which a target
listens.  What lies outside of it is known only so far: there are directories, and a
program that sends back all it is sent.
-/
namespace RemotePyMite

structure Directory where
  files : List (String × Bytes)
  listener : Option (String × Target)

namespace Directory

inductive Place where
  | outside
  | top
  | file (bytes : Bytes)
  | socket (target : Target)

/-- The most bytes of a name. -/
def maxName : Nat := 255

def lookup (d : Directory) (name : String) : Except SystemError Place :=
  match d.listener, d.files.lookup name with
  | some (socket, target), found =>
    if socket = name then .ok (.socket target)
    else
      match found with
      | some bytes => .ok (.file bytes)
      | none => .error .noSuchFile
  | none, some bytes => .ok (.file bytes)
  | none, none => .error .noSuchFile

def step (d : Directory) (place : Place) (name : String) : Except SystemError Place :=
  match place with
  | .file _ | .socket _ => .error .notDirectory
  | .outside =>
    if name = "" ∨ name = "." ∨ name = ".." then .ok .outside
    else if maxName < name.utf8ByteSize then .error .nameTooLong
    else .error .noSuchFile
  | .top =>
    if name = "" ∨ name = "." then .ok .top
    else if name = ".." then .ok .outside
    else if maxName < name.utf8ByteSize then .error .nameTooLong
    else d.lookup name

/-- The bytes for a path and the zero byte behind it. -/
def pathSize : Nat := 4096

def find (d : Directory) (path : String) : Except SystemError Place :=
  if path = "" then .error .noSuchFile
  else if pathSize ≤ path.utf8ByteSize then .error .nameTooLong
  else
    let start := if path.toList.head? = some '/' then .outside else .top
    ((Separated.parts '/' path.toList).map String.ofList).foldlM d.step start

def readFile (d : Directory) (path : String) : Except IoError Bytes :=
  match d.find path with
  | .error e => .error (.ofSystem e)
  | .ok (.file bytes) => .ok bytes
  | .ok (.socket _) => .error (.ofSystem .noSuchDevice)
  | .ok .outside | .ok .top => .error (.ofSystem .isDirectory)

/-- The bytes for a path in the address of a socket. -/
def socketPathSize : Nat := 108

def openSocket (d : Directory) (path : String) : Except IoError Connection :=
  if socketPathSize ≤ path.utf8ByteSize then .error .longSocketPath
  else
    match d.find path with
    | .error e => .error (.ofSystem e)
    | .ok (.socket target) => .ok ⟨LinkHandle.ofStream.description, .ofTarget target⟩
    | .ok _ => .error (.ofSystem .connectionRefused)

/-- The names of the program that sends back all it is sent. -/
def echoPrograms : List String := ["cat", "/bin/cat", "/usr/bin/cat"]

/-- How often that program answers before it is taken for endless. -/
def echoAnswers : Nat := UInt32.size

/-- Starts a program.  Nothing in the working directory can be started, and a name without
a slash is looked for among the programs of the system. -/
def openProgram (d : Directory) (program : String) : Except IoError Connection :=
  if echoPrograms.contains program then
    .ok ⟨s!"{(LinkConfig.pipe program).text} (pid 0)", .ofTarget (.echo echoAnswers)⟩
  else if program.toList.contains '/' then
    match d.find program with
    | .error e => .error (.ofSystem e)
    | .ok _ => .error (.ofSystem .permissionDenied)
  else if program = "." ∨ program = ".." then .error (.ofSystem .permissionDenied)
  else if maxName < program.utf8ByteSize then .error (.ofSystem .nameTooLong)
  else .error (.ofSystem .noSuchFile)

def connect (d : Directory) : LinkConfig → Except LinkError Connection
  | .pipe program =>
    match d.openProgram program with
    | .ok connection => .ok connection
    | .error e => .error (.spawn program e)
  | .socket path =>
    match d.openSocket path with
    | .ok connection => .ok connection
    | .error e => .error (.connect path e)
  | .serial port _ => .error (LinkConfig.unsupportedPort port)

/-- What a command finds in the directory. -/
def surroundings (d : Directory) : Surroundings :=
  ⟨d.readFile, d.connect⟩

end Directory

end RemotePyMite
