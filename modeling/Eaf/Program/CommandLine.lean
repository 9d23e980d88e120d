import Eaf.Notice
import Eaf.Path

/-!
# The command line

The arguments of the program begin with options that hold for all commands. The name of a command
follows, and then its options and its operand in any order. The options for all commands may also
stand among those of the command, where they take precedence.

An option is named by two dashes and a word, or by one dash and a letter. Letters of options
without a value can be joined behind one dash. A value follows its option as the next argument,
behind an equals sign, or directly behind the letter. Two dashes alone end the options. Arguments
are read from left to right, and the first one that asks for help or is wrong decides.

## Main definitions

* `Eaf.Command`, `Eaf.Invocation`, `Eaf.Request` — what the program can be asked to do.
* `Eaf.Flag` — the options.
* `Eaf.Given.read` — the options and the operand in a list of arguments.
* `Eaf.Request.ofArguments` — what the arguments ask for.
-/

namespace Eaf

/-! ### What can be asked for -/

/-- What to do with a file. -/
inductive Command
  | inspect (file : Path) (asJson : Bool)
  | validate (path : Path)
  | normalize (input : Path) (output : Option Path) (overwrite includeReferring : Bool)
  | tree (file : Path)
  deriving DecidableEq, Repr

/-- A command, with the options that hold for all commands. -/
structure Invocation where
  settingsPath : Path
  /-- The level of the remarks, if it is not left to the settings. -/
  level : Option Severity
  strict : Bool
  command : Command
  deriving DecidableEq, Repr

/-- A program that completes the words of a command line. -/
inductive Shell
  | bash
  | elvish
  | fish
  | powershell
  | zsh
  deriving DecidableEq, Repr

/-- The name of a shell. -/
def Shell.name : Shell → String
  | bash => "bash"
  | elvish => "elvish"
  | fish => "fish"
  | powershell => "powershell"
  | zsh => "zsh"

/-- The shell with a given name. -/
def Shell.ofName? (text : String) : Option Shell :=
  [bash, elvish, fish, powershell, zsh].find? (·.name == text)

/-- What the program is asked for. -/
inductive Request
  | completions (shell : Shell)
  | run (invocation : Invocation)
  deriving DecidableEq, Repr

/-- Why arguments are not read to their end. -/
inductive Halt
  /-- The arguments are wrong. -/
  | misuse
  | help
  | version
  deriving DecidableEq, Repr

/-! ### Options -/

/-- The options. -/
inductive Flag
  | help
  | version
  | settingsPath
  | level
  | strict
  | asJson
  | output
  | overwrite
  | includeReferring
  deriving DecidableEq, Repr

namespace Flag

/-- The word that names an option. -/
def word : Flag → String
  | help => "help"
  | version => "version"
  | settingsPath => "config-path"
  | level => "log-level"
  | strict => "strict"
  | asJson => "json"
  | output => "output"
  | overwrite => "force-overwrite"
  | includeReferring => "include-ref"

/-- The letter that names an option, if there is one. -/
def letter? : Flag → Option Char
  | help => some 'h'
  | version => some 'V'
  | settingsPath => some 'c'
  | level => some 'l'
  | output => some 'o'
  | overwrite => some 'f'
  | _ => none

/-- Whether an option has a value. -/
def takesValue : Flag → Bool
  | settingsPath => true
  | level => true
  | output => true
  | _ => false

/-- Whether an option may have a given value. -/
def accepts (value : String) : Flag → Bool
  | level => (Severity.ofName? value).isSome
  | output => !value.isEmpty
  | _ => true

end Flag

/-- A part of the command line, with the options that may stand in it. -/
structure Section where
  flags : List Flag
  /-- Which operand the part may have. If it can have none, the first argument that is no option
  ends the part. -/
  accepts? : Option (String → Bool)

/-- The options and the operand that a part of the command line gives. -/
structure Given where
  values : List (Flag × String) := []
  operand : Option String := none
  deriving DecidableEq, Repr, Inhabited

/-! ### Arguments -/

/-- An argument by its form. -/
inductive Argument
  /-- Two dashes alone. -/
  | separator
  /-- Two dashes with a word and, behind an equals sign, a value. -/
  | word (name : List Char) (value : Option (List Char))
  /-- One dash with letters. -/
  | letters (letters : List Char)
  /-- Anything else, also a dash alone. -/
  | plain (text : String)
  deriving DecidableEq, Repr

/-- An argument by its form. -/
def Argument.ofText (text : String) : Argument :=
  match text.toList with
  | ['-', '-'] => separator
  | '-' :: '-' :: cs =>
    match cs.dropWhile (· ≠ '=') with
    | [] => word cs none
    | _ :: value => word (cs.takeWhile (· ≠ '=')) (some value)
  | '-' :: c :: cs => letters (c :: cs)
  | _ => plain text

namespace Given

/-- The value that is given for an option. -/
def value? (given : Given) (flag : Flag) : Option String :=
  given.values.lookup flag

/-- Whether an option is given. -/
def has (given : Given) (flag : Flag) : Bool :=
  (given.value? flag).isSome

/-- What is given together with an option and its value. An option may be given once. -/
def addFlag (given : Given) (flag : Flag) (value : String) : Except Halt Given :=
  if flag = .help then .error .help
  else if flag = .version then .error .version
  else if given.has flag || !flag.accepts value then .error .misuse
  else .ok { given with values := (flag, value) :: given.values }

/-- What is given together with an option whose value is the next argument. That argument must not
look like an option. -/
def addAwaited (given : Given) (flag : Flag) (argument : String) : Except Halt Given :=
  match Argument.ofText argument with
  | .plain text => given.addFlag flag text
  | _ => .error .misuse

/-- What is given together with an operand, of which there may be one. -/
def addOperand (accepts : String → Bool) (given : Given) (text : String) : Except Halt Given :=
  if given.operand.isSome || !accepts text then .error .misuse
  else .ok { given with operand := some text }

/-- What is given together with an option that is named by a word. If its value is to be the next
argument, the option is returned too. -/
def addWord (flags : List Flag) (given : Given) (name : List Char) (value : Option (List Char)) :
    Except Halt (Given × Option Flag) :=
  match flags.find? (·.word.toList == name), value with
  | none, _ => .error .misuse
  | some flag, none =>
    if flag.takesValue then .ok (given, some flag) else (given.addFlag flag "").map (·, none)
  | some flag, some value =>
    if flag.takesValue then (given.addFlag flag (String.ofList value)).map (·, none)
    else .error .misuse

/-- A value without the equals sign that may stand in front of it. -/
def withoutEquals : List Char → List Char
  | '=' :: value => value
  | value => value

/-- What is given together with options that are named by letters. What follows the letter of an
option with a value is the value. -/
def addLetters (flags : List Flag) (given : Given) :
    List Char → Except Halt (Given × Option Flag)
  | [] => .ok (given, none)
  | c :: cs =>
    match flags.find? (·.letter? == some c) with
    | none => .error .misuse
    | some flag =>
      if flag.takesValue then
        if cs.isEmpty then .ok (given, some flag)
        else (given.addFlag flag (String.ofList (withoutEquals cs))).map (·, none)
      else
        match given.addFlag flag "" with
        | .ok given => addLetters flags given cs
        | .error halt => .error halt

/-- What is given together with the options in an argument. -/
def addOptions (flags : List Flag) (given : Given) :
    Argument → Except Halt (Given × Option Flag)
  | .word name value => given.addWord flags name value
  | .letters letters => given.addLetters flags letters
  | _ => .ok (given, none)

/-- What a part of the command line gives, and the arguments behind the part. -/
def read (part : Section) (given : Given) : List String → Except Halt (Given × List String)
  | [] => .ok (given, [])
  | argument :: arguments =>
    match Argument.ofText argument, part.accepts? with
    | .plain _, none => .ok (given, argument :: arguments)
    | .plain text, some accepts => do
      let given ← given.addOperand accepts text
      given.read part arguments
    | .separator, none => .error .misuse
    | .separator, some accepts => do
      let given ← arguments.foldlM (addOperand accepts) given
      return (given, [])
    | form, _ =>
      match given.addOptions part.flags form with
      | .error halt => .error halt
      | .ok (given, none) => given.read part arguments
      | .ok (given, some flag) =>
        match arguments with
        | [] => .error .misuse
        | value :: rest => do
          let given ← given.addAwaited flag value
          given.read part rest

end Given

/-! ### Commands -/

/-- The names of the commands. -/
inductive Verb
  | inspect
  | validate
  | normalize
  | tree
  | completions
  deriving DecidableEq, Repr

namespace Verb

/-- The name of a command. -/
def name : Verb → String
  | inspect => "inspect"
  | validate => "validate"
  | normalize => "normalize"
  | tree => "tree"
  | completions => "completions"

/-- All commands. -/
def all : List Verb :=
  [inspect, validate, normalize, tree, completions]

/-- The command with a given name. -/
def ofName? (text : String) : Option Verb :=
  all.find? (·.name == text)

/-- The options that only some commands have. -/
def flags : Verb → List Flag
  | inspect => [.asJson]
  | normalize => [.output, .overwrite, .includeReferring]
  | _ => []

/-- Whether a command may have a given operand. -/
def accepts (verb : Verb) (text : String) : Bool :=
  if verb = completions then (Shell.ofName? text).isSome else !text.isEmpty

/-- The part of the command line behind the name of a command. -/
def part (verb : Verb) : Section :=
  { flags := [.help, .settingsPath, .level, .strict] ++ verb.flags
    accepts? := some verb.accepts }

end Verb

/-- The part of the command line before the name of a command. -/
def Section.front : Section :=
  { flags := [.help, .version, .settingsPath, .level, .strict], accepts? := none }

namespace Request

/-- Where the settings are kept unless an option says otherwise. -/
def defaultSettingsPath : String := "elandoc.json"

/-- The command of a given name. -/
def command? (verb : Verb) (given : Given) (operand : String) : Option Command :=
  match verb with
  | .inspect => some (.inspect ⟨operand⟩ (given.has .asJson))
  | .validate => some (.validate ⟨operand⟩)
  | .normalize =>
    some (.normalize ⟨operand⟩ ((given.value? .output).map Path.mk) (given.has .overwrite)
      (given.has .includeReferring))
  | .tree => some (.tree ⟨operand⟩)
  | .completions => none

/-- What is asked for by a command, with what is given before its name and behind it. -/
def ofGiven (front : Given) (verb : Verb) (given : Given) : Except Halt Request :=
  match given.operand with
  | none => .error .misuse
  | some operand =>
    let value? (flag : Flag) := (given.value? flag).or (front.value? flag)
    match command? verb given operand, Shell.ofName? operand with
    | some command, _ =>
      .ok <| run
        { settingsPath := ⟨(value? .settingsPath).getD defaultSettingsPath⟩
          level := (value? .level).bind Severity.ofName?
          strict := front.has .strict || given.has .strict
          command }
    | none, some shell => .ok (completions shell)
    | none, none => .error .misuse

/-- Whether words name something on which there is help. -/
def hasHelp : List String → Bool
  | [] => true
  | [topic] => topic == "help" || (Verb.ofName? topic).isSome
  | _ => false

/-- What the arguments ask for. -/
def ofArguments (arguments : List String) : Except Halt Request := do
  match ← Given.read .front {} arguments with
  | (_, []) => throw .misuse
  | (front, name :: rest) =>
    match Verb.ofName? name with
    | some verb => do
      let (given, _) ← Given.read verb.part {} rest
      ofGiven front verb given
    | none => throw (if name = "help" ∧ hasHelp rest then .help else .misuse)

end Request

end Eaf
