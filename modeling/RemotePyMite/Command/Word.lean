/-! # Words of a command line

A word is an option, the end of the options, or an argument.  An option that takes a value
has it behind an equals sign or as the next word; the next word is then not itself an
option.  Words are read from the left, and the first that does not fit decides.
-/
namespace RemotePyMite

/-- Why the words of a command line make no command. -/
inductive UsageError where
  | unknownOption (word : String)
  | missingValue (option : String)
  | unwantedValue (option : String)
  | badValue (option value : String)
  | repeatedOption (option : String)
  | conflict (option other : String)
  | missingArgument (name : String)
  | unwantedArgument (word : String)
  | missingCommand
  | unknownCommand (word : String)
  deriving DecidableEq, Repr

def UsageError.message : UsageError → String
  | .unknownOption word => s!"unknown option {word}"
  | .missingValue option => s!"option --{option} needs a value"
  | .unwantedValue option => s!"option --{option} takes no value"
  | .badValue option value => s!"invalid value for {option}: {value}"
  | .repeatedOption option => s!"option --{option} given more than once"
  | .conflict option other => s!"option --{option} cannot be used with --{other}"
  | .missingArgument name => s!"missing argument {name}"
  | .unwantedArgument word => s!"unexpected argument {word}"
  | .missingCommand => "missing command"
  | .unknownCommand word => s!"unknown command {word}"

/-- A word by its form. -/
inductive Word where
  | long (name : String) (value : Option String)
  | short (letter : Char)
  /-- Two dashes: no word behind them is an option. -/
  | endOfOptions
  | argument (text : String)
  deriving DecidableEq, Repr

def Word.ofText (text : String) : Word :=
  match text.toList with
  | ['-', '-'] => .endOfOptions
  | '-' :: '-' :: body =>
    let name := String.ofList (body.takeWhile (· ≠ '='))
    match body.dropWhile (· ≠ '=') with
    | [] => .long name none
    | _ :: value => .long name (some (String.ofList value))
  | '-' :: letter :: _ => .short letter
  | _ => .argument text

/-- What an option does. -/
inductive OptionUse where
  | flag
  /-- It ends the reading, and whatever follows does not matter. -/
  | ends
  /-- It has a value for which `accepts` holds; with `repeats` it may have several. -/
  | value (accepts : String → Bool) (repeats : Bool)

/-- An option: its name, its letter if it has one, and what it does.  Only options that
end the reading have letters. -/
structure OptionRule where
  name : String
  letter : Option Char
  use : OptionUse

/-- What was read of a command line. -/
structure Given where
  /-- The names of the options, with their values, in the order given. -/
  options : List (String × Option String)
  arguments : List String
  deriving DecidableEq, Repr

namespace Given

def nothing : Given := ⟨[], []⟩

def has (g : Given) (option : String) : Bool :=
  g.options.any (·.1 = option)

def values (g : Given) (option : String) : List String :=
  g.options.filterMap fun (name, value) => if name = option then value else none

def value? (g : Given) (option : String) : Option String :=
  (g.values option).head?

/-- Adds an option that may not have been given before, unless it may be repeated. -/
def addOption (g : Given) (option : String) (value : Option String) (repeats : Bool) :
    Except UsageError Given :=
  if !repeats && g.has option then .error (.repeatedOption option)
  else .ok { g with options := g.options ++ [(option, value)] }

def addValue (g : Given) (option value : String) (accepts : String → Bool) (repeats : Bool) :
    Except UsageError Given :=
  if accepts value then g.addOption option (some value) repeats
  else .error (.badValue option value)

def addArgument (g : Given) (text : String) : Given :=
  { g with arguments := g.arguments ++ [text] }

/-- Reads words by the rules.  With `leading` only the options in front of the first
argument are read; the words from that argument on are left. -/
def read (rules : List OptionRule) (leading : Bool) :
    List String → Given → Except UsageError (Given × List String)
  | [], g => .ok (g, [])
  | word :: rest, g =>
    match Word.ofText word with
    | .argument text =>
      if leading then .ok (g, word :: rest) else read rules leading rest (g.addArgument text)
    | .endOfOptions =>
      if leading then
        match rest with
        | [] => .ok (g, [])
        | next :: _ => .error (.unwantedArgument next)
      else .ok (rest.foldl addArgument g, [])
    | .short letter =>
      match rules.find? (·.letter = some letter) with
      | some rule => return (← g.addOption rule.name none false, [])
      | none => .error (.unknownOption word)
    | .long name value =>
      match rules.find? (·.name = name), value with
      | none, _ => .error (.unknownOption word)
      | some ⟨_, _, .value accepts repeats⟩, some value => do
        read rules leading rest (← g.addValue name value accepts repeats)
      | some ⟨_, _, .value accepts repeats⟩, none =>
        match rest with
        | [] => .error (.missingValue name)
        | value :: rest =>
          match Word.ofText value with
          | .argument _ => do
            read rules leading rest (← g.addValue name value accepts repeats)
          | _ => .error (.missingValue name)
      | some _, some _ => .error (.unwantedValue name)
      | some ⟨_, _, .flag⟩, none => do
        read rules leading rest (← g.addOption name none false)
      | some ⟨_, _, .ends⟩, none => return (← g.addOption name none false, [])

end Given

end RemotePyMite
