import RemotePyMite.Command.Target

/-! # Commands

What a user can ask for, and in which form the answer is printed.
-/
namespace RemotePyMite

inductive OutputFormat where
  | json
  | table
  | pretty
  deriving DecidableEq, Repr

inductive Command where
  /-- Does the handshake and tells the parameters of the link. -/
  | sync (target : TargetOptions)
  | threads (target : TargetOptions)
  | memory (target : TargetOptions)
  | autorun (target : TargetOptions) (replacement : Option (List String))
  | start (target : TargetOptions) (moduleName : String)
  /-- Loads a module image, and starts the module if asked. -/
  | load (target : TargetOptions) (moduleName imagePath : String) (starts : Bool)
  | monitor (target : TargetOptions) (count : Option Nat)
  | dump (imagePath : String)
  | version
  deriving DecidableEq, Repr

def Command.imagePath? : Command → Option String
  | .load _ _ path _ => some path
  | .dump path => some path
  | _ => none

structure Invocation where
  command : Command
  format : Option OutputFormat
  deriving DecidableEq, Repr

end RemotePyMite
