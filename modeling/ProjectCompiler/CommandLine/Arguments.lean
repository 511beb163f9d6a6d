/-!
# Arguments — what the command line asks for

The first word names a command; options may stand anywhere behind it. An option takes its value from
the same argument (`-cFILE`, `-c=FILE`, `--config=FILE`) or from the next one, which then must not
look like an option itself; a value is never empty, and no option that takes one is repeated. Flags
without a value can be written together (`-vv`), and `--` ends the options.

Two requests that have nothing to do with a manifest are left out: the command `completions`, which prints
a script for a shell, and help, which is asked for by `help`, `-h` or `--help`. Here they are refused as
unknown words and options are.

- `Invocation.parse`: the request, or why there is none.
-/

namespace ProjectCompiler

/-- What is asked for, with a path for each option. -/
inductive Invocation
  | version
  | check (manifest : String)
  | info (manifest : String)
  | generate (manifest directory : String)
  deriving DecidableEq, Repr

inductive UsageFault
  | noCommand
  | unknownCommand (word : String)
  | unknownOption (argument : String)
  | unexpectedArgument (argument : String)
  | unexpectedValue (option : String)
  | missingValue (option : String)
  | repeatedOption (option : String)
  deriving DecidableEq, Repr

namespace UsageFault

def message : UsageFault → String
  | noCommand => "a command is required: generate, check or info"
  | unknownCommand word => s!"unknown command '{word}'"
  | unknownOption argument => s!"unknown option '{argument}'"
  | unexpectedArgument argument => s!"unexpected argument '{argument}'"
  | unexpectedValue option => s!"option '{option}' takes no value"
  | missingValue option => s!"option '{option}' needs a value"
  | repeatedOption option => s!"option '{option}' cannot be used multiple times"

end UsageFault

/-! ## Single arguments -/

/-- An argument by its form. -/
inductive Argument
  | word (text : String)
  | endOfOptions
  /-- Letters behind one dash. -/
  | short (letters : List Char)
  /-- A name behind two dashes, with what follows an equals sign. -/
  | long (name : List Char) (value : Option (List Char))
  deriving DecidableEq, Repr

/-- What follows the first equals sign, if there is one. -/
def Argument.attached (text : List Char) : Option (List Char) :=
  match text.dropWhile (· ≠ '=') with
  | [] => none
  | _ :: value => some value

/-- A lone dash is a word. -/
def Argument.ofText (text : String) : Argument :=
  match text.toList with
  | ['-', '-'] => .endOfOptions
  | '-' :: '-' :: rest => .long (rest.takeWhile (· ≠ '=')) (attached rest)
  | '-' :: letter :: rest => .short (letter :: rest)
  | _ => .word text

/-! ## Options of commands -/

inductive CommandWord
  | generate
  | check
  | info
  deriving DecidableEq, Repr

def CommandWord.ofText? (text : String) : Option CommandWord :=
  if text = "generate" then some generate
  else if text = "check" then some check
  else if text = "info" then some info
  else none

/-- An option that takes a value. -/
inductive PathOption
  | config
  | output
  deriving DecidableEq, Repr

namespace PathOption

def name : PathOption → String
  | config => "--config"
  | output => "--output"

/-- Only generating writes anything. -/
def allowed (command : CommandWord) : PathOption → Bool
  | config => true
  | output => command = .generate

def ofName? (command : CommandWord) (name : List Char) : Option PathOption :=
  ([config, output].find? fun option => option.name.toList = '-' :: '-' :: name).filter
    (allowed command)

def ofLetter? (command : CommandWord) (letter : Char) : Option PathOption :=
  (if letter = 'c' then some config else if letter = 'o' then some output else none).filter
    (allowed command)

end PathOption

/-- The values given so far. -/
structure PathChoices where
  config : Option String
  output : Option String
  deriving DecidableEq, Repr

def PathChoices.none : PathChoices :=
  { config := Option.none, output := Option.none }

/-- Give an option its value, once, and not an empty one. -/
def PathChoices.choose (choices : PathChoices) (option : PathOption) (value : String) :
    Except UsageFault PathChoices :=
  if value = "" then .error (.missingValue option.name)
  else
    match option with
    | .config =>
        if choices.config.isSome then .error (.repeatedOption option.name)
        else .ok { choices with config := some value }
    | .output =>
        if choices.output.isSome then .error (.repeatedOption option.name)
        else .ok { choices with output := some value }

/-- The option that letters ask for, with a value right behind it; `v` asks for nothing but more
logging. -/
def readLetters (command : CommandWord) :
    List Char → Except UsageFault (Option (PathOption × Option (List Char)))
  | [] => .ok none
  | letter :: rest =>
      if letter = 'v' then readLetters command rest
      else
        match PathOption.ofLetter? command letter with
        | none => .error (.unknownOption (String.ofList ['-', letter]))
        | some option =>
            match rest with
            | [] => .ok (some (option, none))
            | '=' :: value => .ok (some (option, some value))
            | value => .ok (some (option, some value))

/-- The option that a name asks for, with its attached value. -/
def readLongName (command : CommandWord) (name : List Char) (value : Option (List Char)) :
    Except UsageFault (Option (PathOption × Option (List Char))) :=
  if name = "verbose".toList then
    if value.isSome then .error (.unexpectedValue "--verbose") else .ok none
  else
    match PathOption.ofName? command name with
    | none => .error (.unknownOption ("--" ++ String.ofList name))
    | some option => .ok (some (option, value))

/-- The option of an argument, none if it asks for nothing. -/
def readOption (command : CommandWord) :
    Argument → Except UsageFault (Option (PathOption × Option (List Char)))
  | .short letters => readLetters command letters
  | .long name value => readLongName command name value
  | .word text => .error (.unexpectedArgument text)
  | .endOfOptions => .ok none

/-- Read everything behind the command. -/
def readOptions (command : CommandWord) (choices : PathChoices) :
    List String → Except UsageFault PathChoices
  | [] => .ok choices
  | [argument] =>
      match readOption command (Argument.ofText argument) with
      | .error fault => .error fault
      | .ok none => .ok choices
      | .ok (some (option, some value)) => choices.choose option (String.ofList value)
      | .ok (some (option, none)) => .error (.missingValue option.name)
  | argument :: next :: rest =>
      -- Commands take options only, so nothing may stand behind the end of options.
      if Argument.ofText argument = .endOfOptions then .error (.unexpectedArgument next)
      else
        match readOption command (Argument.ofText argument) with
        | .error fault => .error fault
        | .ok none => readOptions command choices (next :: rest)
        | .ok (some (option, some value)) =>
            match choices.choose option (String.ofList value) with
            | .error fault => .error fault
            | .ok choices => readOptions command choices (next :: rest)
        -- The value is the next argument, unless that is an option itself.
        | .ok (some (option, none)) =>
            match Argument.ofText next with
            | .word value =>
                match choices.choose option value with
                | .error fault => .error fault
                | .ok choices => readOptions command choices rest
            | _ => .error (.missingValue option.name)

/-! ## Whole command lines -/

namespace Invocation

def defaultManifest : String :=
  "xcforge.toml"

def defaultDirectory : String :=
  "."

def ofCommand (command : CommandWord) (choices : PathChoices) : Invocation :=
  let manifest := choices.config.getD defaultManifest
  match command with
  | .generate => .generate manifest (choices.output.getD defaultDirectory)
  | .check => .check manifest
  | .info => .info manifest

/-- Letters before any command: whether they ask for the version. -/
def asksForVersion : List Char → Except UsageFault Bool
  | [] => .ok false
  | letter :: rest =>
      if letter = 'v' then asksForVersion rest
      else if letter = 'V' then .ok true
      else .error (.unknownOption (String.ofList ['-', letter]))

def parse : List String → Except UsageFault Invocation
  | [] => .error .noCommand
  | argument :: rest =>
      match Argument.ofText argument with
      | .word text =>
          match CommandWord.ofText? text with
          | none => .error (.unknownCommand text)
          | some command => (readOptions command .none rest).map (ofCommand command)
      | .endOfOptions =>
          match rest with
          | [] => .error .noCommand
          | next :: _ => .error (.unexpectedArgument next)
      | .short letters =>
          match asksForVersion letters with
          | .error fault => .error fault
          | .ok true => .ok .version
          | .ok false => parse rest
      | .long name value =>
          if value.isSome then .error (.unexpectedValue argument)
          else if name = "version".toList then .ok .version
          else if name = "verbose".toList then parse rest
          else .error (.unknownOption argument)

end Invocation

end ProjectCompiler
