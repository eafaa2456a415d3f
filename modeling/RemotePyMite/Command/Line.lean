import RemotePyMite.Command.Basic
import RemotePyMite.Command.Word
import RemotePyMite.Text.Separated

/-! # The command line

The words of a command line are options for every command, the name of a command, and the
options and arguments of that command, in which the former may be given again.  The
program of a target may come from the environment, if no option names one.
-/
namespace RemotePyMite

/-- What the words of a command line ask for. -/
inductive Request where
  | version
  | invocation (invocation : Invocation)
  deriving DecidableEq, Repr

namespace CommandLine

/-- The greatest number of an option that counts in four bytes. -/
def maxSetting : Nat := UInt32.size - 1

/-- The greatest number of lines. -/
def maxCount : Nat := UInt64.size - 1

/-- The number a setting denotes. -/
def setting? (text : String) : Option Nat :=
  Numeral.signedArgument? maxSetting text.toList

/-- The number of lines a text denotes. -/
def count? (text : String) : Option Nat :=
  Numeral.argument? maxCount text.toList

def format? : String → Option OutputFormat
  | "json" => some .json
  | "table" => some .table
  | "pretty" => some .pretty
  | _ => none

/-- Any text will do. -/
def anyText (_ : String) : Bool := true

def isPath (text : String) : Bool := !text.isEmpty

/-- An option that has at most one value. -/
def valueRule (name : String) (accepts : String → Bool) : OptionRule :=
  ⟨name, none, .value accepts false⟩

def flagRule (name : String) : OptionRule :=
  ⟨name, none, .flag⟩

/-- The options of every command.  The two that are about a log are checked, and change
nothing of what is printed. -/
def commonRules : List OptionRule :=
  [valueRule "format" fun text => (format? text).isSome,
    valueRule "log-format" fun text => ["text", "json"].contains text,
    valueRule "log-level" fun text => ["error", "warn", "info", "debug", "trace"].contains text]

def leadingRules : List OptionRule :=
  ⟨"version", some 'V', .ends⟩ :: commonRules

def targetRules : List OptionRule :=
  [valueRule "pipe" isPath, valueRule "serial" anyText,
    valueRule "baud" fun text => (setting? text).isSome,
    valueRule "socket" isPath, valueRule "timeout" anyText,
    valueRule "retries" fun text => (setting? text).isSome]

def defaultTimeout : String := "3s"

def defaultRetries : Nat := 3

/-- The target that the options name; `fallback` is the program of the environment. -/
def target (fallback : Option String) (g : Given) : Except UsageError TargetOptions := do
  let program ← match g.value? "pipe", fallback with
    | some program, _ => pure (some program)
    | none, some program =>
      if isPath program then pure (some program) else throw (.badValue "pipe" program)
    | none, none => pure none
  return {
    program
    port := g.value? "serial"
    baudRate := ((g.value? "baud").bind setting?).getD defaultBaudRate
    socket := g.value? "socket"
    timeout := (g.value? "timeout").getD defaultTimeout
    retries := ((g.value? "retries").bind setting?).getD defaultRetries }

/-- Reads the words of a command: its options by `rules`, and as many arguments as it has
`names` for. -/
def given (rules : List OptionRule) (names words : List String) : Except UsageError Given := do
  let (g, _) ← Given.read (rules ++ commonRules) false words .nothing
  if let some word := g.arguments[names.length]? then throw (.unwantedArgument word)
  if let some name := names[g.arguments.length]? then throw (.missingArgument name)
  return g

/-- The modules that are to replace those the target starts by itself. -/
def replacement (g : Given) : Except UsageError (Option (List String)) :=
  if g.has "set" then
    if g.has "clear" then throw (.conflict "set" "clear")
    else pure (some ((g.values "set").flatMap fun names =>
      (Separated.parts ',' names.toList).map String.ofList))
  else pure (if g.has "clear" then some [] else none)

def path (name text : String) : Except UsageError String :=
  if isPath text then pure text else throw (.badValue name text)

def command (fallback : Option String) (name : String) (words : List String) :
    Except UsageError (Command × Given) := do
  match name with
  | "sync" =>
    let g ← given targetRules [] words
    return (.sync (← target fallback g), g)
  | "threads" =>
    let g ← given targetRules [] words
    return (.threads (← target fallback g), g)
  | "mem" =>
    let g ← given targetRules [] words
    return (.memory (← target fallback g), g)
  | "autorun" =>
    let g ← given (⟨"set", none, .value anyText true⟩ :: flagRule "clear" :: targetRules) [] words
    return (.autorun (← target fallback g) (← replacement g), g)
  | "start" =>
    let g ← given targetRules ["module"] words
    return (.start (← target fallback g) (g.arguments.getD 0 ""), g)
  | "load" =>
    let g ← given (flagRule "start" :: targetRules) ["name", "image"] words
    return (.load (← target fallback g) (g.arguments.getD 0 "")
      (← path "image" (g.arguments.getD 1 "")) (g.has "start"), g)
  | "monitor" =>
    let g ← given (valueRule "count" (fun text => (count? text).isSome) :: targetRules) [] words
    return (.monitor (← target fallback g) ((g.value? "count").bind count?), g)
  | "dump" =>
    let g ← given [] ["image"] words
    return (.dump (← path "image" (g.arguments.getD 0 "")), g)
  | "version" =>
    let g ← given [] [] words
    return (.version, g)
  | other => throw (.unknownCommand other)

/-- What the words of a command line ask for.  A form chosen behind the name of the command
goes before one chosen in front of it. -/
def read (fallback : Option String) (words : List String) : Except UsageError Request := do
  let (leading, rest) ← Given.read leadingRules true words .nothing
  if leading.has "version" then return .version
  match rest with
  | [] => throw .missingCommand
  | name :: words =>
    let (command, g) ← command fallback name words
    return .invocation
      ⟨command, ((g.value? "format").or (leading.value? "format")).bind format?⟩

end CommandLine

end RemotePyMite
