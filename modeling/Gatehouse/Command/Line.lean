import Gatehouse.Simulation

/-! Command lines. The first word names the command, and the words after it are its options:
`--name value`, `--name=value`, or `--name` alone for one that takes no value. A line that asks for
help is answered with help as soon as it asks, and every option is given at most once.
-/

namespace Gatehouse

/-- What the program is asked to do. -/
inductive Command
  | init (config storePath : Option String) (overwrite : Bool)
  | check (members : String) (config now : Option String)
  | simulate (members : String) (config : Option String) (answer : ScriptedAnswer)
  | reminderStatus (config : Option String)
  | version
deriving DecidableEq, Repr

/-- What a line that asks for no command is answered with. -/
inductive Usage
  | help
  | version
  /-- The line is empty. -/
  | nothingAsked
  | unknownCommand
  | unknownArgument
  | missingOption
  | missingValue
  | excessValue
  /-- Two options exclude each other, or one is given twice. -/
  | conflict
deriving DecidableEq, Repr

/-- The name and the version of the program. -/
def versionLine : String := "warden 0.1.0\n"

namespace Usage

/-- Help and version were asked for; all else is a mistake. -/
def isMistake : Usage → Bool
  | help | version => false
  | _ => true

def helpText : String :=
  "Operator CLI for the Warden member verification service\n\nUsage: warden <COMMAND>\n\n"
    ++ "Commands:\n"
    ++ "  init [--config PATH] [--store-path PATH] [--force]\n"
    ++ "  check --members PATH [--config PATH] [--now TIME]\n"
    ++ "  simulate --members PATH [--config PATH] [--approve | --deny]\n"
    ++ "  reminder-status [--config PATH]\n"
    ++ "  version\n"
    ++ "  help\n"

/-- What is wrong with the line, when something is. -/
def mistakeText : Usage → String
  | help | version | nothingAsked => ""
  | unknownCommand => "error: unrecognized subcommand\n\n"
  | unknownArgument => "error: unexpected argument found\n\n"
  | missingOption => "error: a required argument was not provided\n\n"
  | missingValue => "error: a value is required but none was supplied\n\n"
  | excessValue => "error: a value was given to a flag\n\n"
  | conflict => "error: an argument cannot be used with another one or a second time\n\n"

def text (usage : Usage) : String :=
  if usage = version then versionLine else usage.mistakeText ++ helpText

end Usage

namespace Command

/-- The configuration file that a command was given. -/
def config : Command → Option String
  | init config .. | check _ config _ | simulate _ config _ | reminderStatus config => config
  | version => none

/-- The snapshot that a command was given. -/
def members : Command → Option String
  | check members .. | simulate members .. => some members
  | init .. | reminderStatus _ | version => none

-------------------------------------------------------------------------------
-- Commands and their options
-------------------------------------------------------------------------------

inductive Verb
  | init
  | check
  | simulate
  | reminderStatus
  | version
deriving DecidableEq, Repr

inductive Parameter
  | config
  | storePath
  | force
  | members
  | now
  | approve
  | deny
deriving DecidableEq, Repr

namespace Parameter

def name : Parameter → String
  | config => "config"
  | storePath => "store-path"
  | force => "force"
  | members => "members"
  | now => "now"
  | approve => "approve"
  | deny => "deny"

def takesValue : Parameter → Bool
  | config | storePath | members | now => true
  | force | approve | deny => false

end Parameter

namespace Verb

def ofWord? : String → Option Verb
  | "init" => some init
  | "check" => some check
  | "simulate" => some simulate
  | "reminder-status" => some reminderStatus
  | "version" => some version
  | _ => none

def parameters : Verb → List Parameter
  | init => [.config, .storePath, .force]
  | check => [.members, .config, .now]
  | simulate => [.members, .config, .approve, .deny]
  | reminderStatus => [.config]
  | version => []

def parameter? (verb : Verb) (name : String) : Option Parameter :=
  verb.parameters.find? fun parameter => parameter.name = name

end Verb

-------------------------------------------------------------------------------
-- Words
-------------------------------------------------------------------------------

/-- A word of a line, by its dashes. -/
inductive Word
  /-- Two dashes alone: no option comes after them. -/
  | separator
  /-- The name and value of an option, after two dashes. -/
  | long (name : String) (value : Option String)
  /-- Letters after one dash. -/
  | short (first : Char) (rest : List Char)
  /-- Any other word; one dash alone is one. -/
  | plain (text : String)
deriving DecidableEq, Repr

/-- Cut the name of an option from its value at the first equality sign. -/
def Word.longOf (text : List Char) : Word :=
  .long (String.ofList (text.takeWhile (· ≠ '=')))
    (match text.dropWhile (· ≠ '=') with
      | [] => none
      | _ :: value => some (String.ofList value))

def Word.ofString (text : String) : Word :=
  match text.toList with
  | ['-', '-'] => .separator
  | '-' :: '-' :: rest => longOf rest
  | '-' :: c :: rest => .short c rest
  | _ => .plain text

-------------------------------------------------------------------------------
-- Reading
-------------------------------------------------------------------------------

/-- Options that were read, and the one whose value may still have to come. An option counts as
given only when the next one begins or the line ends.
-/
structure Given where
  entries : List (Parameter × String)
  pending : Option (Parameter × Option String)
deriving DecidableEq, Repr

namespace Given

def empty : Given := ⟨[], none⟩

def value? (given : Given) (parameter : Parameter) : Option String :=
  (given.entries.find? fun entry => entry.1 = parameter).map Prod.snd

def holds (given : Given) (parameter : Parameter) : Bool := (given.value? parameter).isSome

/-- Count an option as given, once. -/
def put (given : Given) (parameter : Parameter) (value : String) : Except Usage Given :=
  if given.holds parameter then .error .conflict
  else .ok { given with entries := (parameter, value) :: given.entries }

/-- Count the pending option as given; its value has to be there. -/
def settle (given : Given) : Except Usage Given :=
  match given.pending with
  | none => .ok given
  | some (_, none) => .error .missingValue
  | some (parameter, some value) => { given with pending := none }.put parameter value

def help (given : Given) : Except Usage Given := do
  let _ ← given.settle
  .error .help

/-- Take an option of a command, with the value that is attached to it. -/
def takeLong (given : Given) (verb : Verb) (name : String) (value : Option String)
    : Except Usage Given :=
  if name = "help" then
    if value.isSome then .error .excessValue else given.help
  else
    match verb.parameter? name with
    | none => .error .unknownArgument
    | some parameter =>
        match parameter.takesValue, value with
        | true, some value => do (← given.settle).put parameter value
        | true, none => do
            let given ← given.settle
            .ok { given with pending := some (parameter, none) }
        | false, some _ => .error .excessValue
        | false, none => do (← given.settle).put parameter ""

/-- Take a word that is no option. It can only be a value that has to come. -/
def takePlain (given : Given) (text : String) : Except Usage Given :=
  match given.pending with
  | some (parameter, none) => .ok { given with pending := some (parameter, some text) }
  | _ => .error .unknownArgument

def read (verb : Verb) (given : Given) : List String → Except Usage Given
  | [] => given.settle
  | word :: rest =>
      match Word.ofString word with
      | .separator => if rest.isEmpty then given.settle else .error .unknownArgument
      | .long name value => do read verb (← given.takeLong verb name value) rest
      | .short 'h' _ => given.help
      | .short .. => .error .unknownArgument
      | .plain text => do read verb (← given.takePlain text) rest

/-- The value of an option that has to be given. -/
def require (given : Given) (parameter : Parameter) : Except Usage String :=
  match given.value? parameter with
  | some value => .ok value
  | none => .error .missingOption

/-- The answer that two options ask for, which exclude each other. -/
def answer (given : Given) : Except Usage ScriptedAnswer :=
  match given.holds .approve, given.holds .deny with
  | true, true => .error .conflict
  | true, false => .ok .approve
  | false, true => .ok .deny
  | false, false => .ok .unanswered

/-- The command with the options that were given. -/
def command (given : Given) : Verb → Except Usage Command
  | .init => .ok (.init (given.value? .config) (given.value? .storePath) (given.holds .force))
  | .check => do
      .ok (.check (← given.require .members) (given.value? .config) (given.value? .now))
  | .simulate => do
      let answer ← given.answer
      .ok (.simulate (← given.require .members) (given.value? .config) answer)
  | .reminderStatus => .ok (.reminderStatus (given.value? .config))
  | .version => .ok .version

end Given

/-- The word that asks for help with a command is itself a command. -/
def isCommandWord (word : String) : Bool := word = "help" || (Verb.ofWord? word).isSome

/-- Answer the words after the word for help: at most one, which names a command. -/
def readHelp : List String → Usage
  | [] => .help
  | [word] => if isCommandWord word then .help else .unknownCommand
  | _ => .unknownCommand

/-- Answer a line that does not begin with a command. -/
def readOther (word : String) (rest : List String) : Usage :=
  match Word.ofString word with
  | .separator =>
      match rest with
      | [] => .nothingAsked
      | next :: _ => if isCommandWord next then .unknownArgument else .unknownCommand
  | .long "help" none => .help
  | .long "version" none => .version
  | .long "help" (some _) | .long "version" (some _) => .excessValue
  | .short 'h' _ => .help
  | .short 'V' _ => .version
  | .long .. | .short .. => .unknownArgument
  | .plain _ => .unknownCommand

/-- Read a command line, without the name of the program. -/
def read : List String → Except Usage Command
  | [] => .error .nothingAsked
  | word :: rest =>
      match Verb.ofWord? word with
      | some verb => do (← Given.empty.read verb rest).command verb
      | none => .error (if word = "help" then readHelp rest else readOther word rest)

end Command

end Gatehouse
