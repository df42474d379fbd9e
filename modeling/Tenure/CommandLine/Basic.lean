/-!
# `Tenure.CommandLine.Basic`: flags, values and commands

A command line is read from left to right. `--flag value`, `--flag=value`,
`-f value` and `-fvalue` give a flag its value; a word that starts with a dash is
no value of the flag before it, unless it is a single dash. A flag is given once
at most. What a flag was given is checked when the next flag is read, or at the
end, so of two mistakes the one that is met first this way is reported. After
two dashes everything is a word; words are commands, and the first one ends the
reading.
-/

set_option autoImplicit false

namespace Tenure.CommandLine

/-- What a flag takes. A path is not empty. -/
inductive Argument
  | nothing
  | text
  | path
deriving Repr, DecidableEq

/-- A flag, by its long name and its letter. -/
structure Flag where
  name : String
  letter : Option Char
  argument : Argument
deriving Repr, DecidableEq

/-- Why a command line is not taken. -/
inductive UsageError
  | unknownArgument
  | invalidValue
  /-- A flag is given twice. -/
  | conflict
  | tooManyValues
  | unknownCommand
  | missingCommand
  /-- Help was asked for. -/
  | help
deriving Repr, DecidableEq

/-- The kind of an error, in one word. -/
def UsageError.kind : UsageError → String
  | unknownArgument => "UnknownArgument"
  | invalidValue => "InvalidValue"
  | conflict => "ArgumentConflict"
  | tooManyValues => "TooManyValues"
  | unknownCommand => "InvalidSubcommand"
  | missingCommand => "MissingSubcommand"
  | help => "DisplayHelp"

def UsageError.message : UsageError → String
  | unknownArgument => "there is an argument that is not known"
  | invalidValue => "a flag lacks its value, or cannot take it"
  | conflict => "a flag is given more than once"
  | tooManyValues => "a flag that takes no value has one"
  | unknownCommand => "there is a command that is not known"
  | missingCommand => "a command is missing"
  | help => "help"

/-- The flags and commands that are known. -/
structure Usage where
  flags : List Flag
  commands : List String
deriving Repr

/-- The flags that were given, with their values. -/
abbrev Given := List (String × String)

/-- What was read of a command line. -/
structure Parsed where
  given : Given
  command : Option String
deriving Repr

/-- One line about a flag. -/
def Flag.line (f : Flag) : String :=
  let letter := match f.letter with
    | some c => s!"-{c}, "
    | none => "    "
  let value := match f.argument with
    | .nothing => ""
    | .text => " VALUE"
    | .path => " PATH"
  s!"  {letter}--{f.name}{value}\n"

/-- The help on a command line. -/
def Usage.text (u : Usage) : String :=
  let commands := if u.commands.isEmpty then "" else
    "Commands: " ++ ", ".intercalate u.commands ++ "\n"
  commands ++ "Options:\n" ++ String.join (u.flags.map Flag.line)

/-- A flag whose value was not checked yet: it may still be missing. -/
structure Pending where
  flag : Flag
  value : Option String
deriving Repr

/-- The help flag, which every command line has. -/
def helpFlag : Flag := ⟨"help", some 'h', .nothing⟩

namespace Usage

/-- The flag of a long name. -/
def long? (u : Usage) (name : String) : Option Flag :=
  (helpFlag :: u.flags).find? (·.name == name)

/-- The flag of a letter. -/
def letter? (u : Usage) (c : Char) : Option Flag :=
  (helpFlag :: u.flags).find? (·.letter == some c)

end Usage

/-- Takes a flag and its value in. -/
def give (given : Given) (flag : Flag) (value : String) : Except UsageError Given :=
  if (given.lookup flag.name).isSome then .error .conflict
  else if flag.argument = .path && value.isEmpty then .error .invalidValue
  else .ok (given ++ [(flag.name, value)])

/-- Takes in what is pending. -/
def settle (given : Given) : Option Pending → Except UsageError Given
  | none => .ok given
  | some ⟨_, none⟩ => .error .invalidValue
  | some ⟨flag, some value⟩ => give given flag value

/-- A flag is read, with the value that is attached to it. -/
def take (given : Given) (pending : Option Pending) (flag : Flag) (attached : Option String) :
    Except UsageError (Given × Option Pending) :=
  match flag.argument, attached with
  | .nothing, some _ => .error .tooManyValues
  | .nothing, none => do
    let given ← settle given pending
    if flag = helpFlag then throw .help
    return (← give given flag "", none)
  | _, some value => do
    let given ← settle given pending
    return (← give given flag value, none)
  | _, none => do
    let given ← settle given pending
    return (given, some ⟨flag, none⟩)

/-- Splits a long flag from the value that is attached to it. -/
def splitLong (s : List Char) : String × Option String :=
  match s.dropWhile (· != '=') with
  | [] => (String.ofList s, none)
  | _ :: value => (String.ofList (s.takeWhile (· != '=')), some (String.ofList value))

/-- The value that is attached to a letter. -/
def attachedTo : List Char → Option String
  | [] => none
  | '=' :: value => some (String.ofList value)
  | value => some (String.ofList value)

/-- Reads letters after a single dash. A letter that takes a value takes what is
left as its value. -/
def takeLetters (u : Usage) (given : Given) (pending : Option Pending) :
    List Char → Except UsageError (Given × Option Pending)
  | [] => .ok (given, pending)
  | c :: rest =>
    match u.letter? c with
    | none => .error .unknownArgument
    | some flag =>
      if flag.argument = .nothing then do
        let (given, pending) ← take given pending flag none
        takeLetters u given pending rest
      else take given pending flag (attachedTo rest)

/-- Whether a flag waits for its value. -/
def isWaiting (pending : Option Pending) : Bool := pending.any (·.value.isNone)

/-- What a word is. -/
inductive Word
  | dashes
  | long (text : List Char)
  | letters (text : List Char)
  | plain
deriving Repr, DecidableEq

/-- Tells flags from other words. -/
def classify (word : String) : Word :=
  match word.toList with
  | ['-', '-'] => .dashes
  | '-' :: '-' :: rest => .long rest
  | ['-'] => .plain
  | '-' :: rest => .letters rest
  | _ => .plain

/-- The error for a word that is neither a flag nor a value nor a command. -/
def strayWord (u : Usage) : UsageError :=
  if u.commands.isEmpty then .unknownArgument else .unknownCommand

/-- Asks for help on a command. -/
def helpOn (u : Usage) : List String → UsageError
  | [] => .help
  | [command] => if u.commands.contains command || command == "help" then .help else .unknownCommand
  | _ => .unknownCommand

/-- Reads the words after a command, which takes nothing but the help flag. -/
def afterCommand (words : List String) : Except UsageError Unit :=
  match words with
  | [] => .ok ()
  | word :: rest =>
    match classify word with
    | .dashes => if rest.isEmpty then .ok () else .error .unknownArgument
    | .long text =>
      match splitLong text with
      | ("help", none) => .error .help
      | ("help", some _) => .error .tooManyValues
      | _ => .error .unknownArgument
    | .letters ('h' :: _) => .error .help
    | _ => .error .unknownArgument

/-- Ends the reading. -/
def finish (u : Usage) (given : Given) (pending : Option Pending) (command : Option String) :
    Except UsageError Parsed := do
  let given ← settle given pending
  if command.isNone && !u.commands.isEmpty then throw .missingCommand
  return ⟨given, command⟩

/-- Reads words from left to right. -/
def readWords (u : Usage) (given : Given) (pending : Option Pending) :
    List String → Except UsageError Parsed
  | [] => finish u given pending none
  | word :: rest =>
    if !isWaiting pending && !u.commands.isEmpty && word == "help" then .error (helpOn u rest)
    else if !isWaiting pending && u.commands.contains word then do
      afterCommand rest
      finish u given pending (some word)
    else
      match classify word with
      | .dashes => if rest.isEmpty then finish u given pending none else .error (strayWord u)
      | .long text =>
        let (name, attached) := splitLong text
        match u.long? name with
        | none => .error .unknownArgument
        | some flag =>
          match take given pending flag attached with
          | .error e => .error e
          | .ok (given, pending) => readWords u given pending rest
      | .letters text =>
        match takeLetters u given pending text with
        | .error e => .error e
        | .ok (given, pending) => readWords u given pending rest
      | .plain =>
        match pending with
        | some ⟨flag, none⟩ => readWords u given (some ⟨flag, some word⟩) rest
        | _ => .error (strayWord u)

/-- Reads a command line. Without any word there is nothing to do for a program
that takes commands but to show its help. -/
def Usage.read (u : Usage) (words : List String) : Except UsageError Parsed :=
  readWords u [] none words

end Tenure.CommandLine
