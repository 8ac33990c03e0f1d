import TestScaffold.Command.Help
import TestScaffold.Text.Cut
/-!
# Command lines

A command line names a command, with options in front of it and behind it.
`Invocation.ofArguments` reads one, or says why no command is run: because of a fault,
or because help or the version is asked for.

An option takes its value from behind an equals sign, from the rest of a group of
short options or from the next argument. It is recorded only when the next option
or the end of the command line shows that it is complete; this decides which of
two faults is reported. The options behind the command are complete before the
last one in front of it.
-/

namespace TestScaffold

/-- Why no command is run. -/
inductive Usage where
  /-- Help is asked for. -/
  | help (topic : HelpTopic)
  /-- The version is asked for. -/
  | version
  /-- The command line is empty, which shows help. -/
  | helpForNothing
  /-- There are options but no command. -/
  | missingCommand
  /-- A required option is missing. -/
  | missingOption
  /-- A command does not exist. -/
  | unknownCommand
  /-- An argument or an option does not exist. -/
  | unknownArgument
  /-- An option has no value or an empty one. -/
  | missingValue
  /-- An option is given twice. -/
  | repeatedOption
  /-- A flag is given a value. -/
  | valueForFlag
deriving DecidableEq, Repr

/-- What is said when no command is run. -/
def Usage.message : Usage → String
  | help topic => topic.page
  | helpForNothing => HelpTopic.program.page
  | version => versionText
  | missingCommand => "ddt error: a command is missing"
  | missingOption => "ddt error: a required option is missing"
  | unknownCommand => "ddt error: there is no such command"
  | unknownArgument => "ddt error: there is no such argument"
  | missingValue => "ddt error: an option has no value"
  | repeatedOption => "ddt error: an option is given twice"
  | valueForFlag => "ddt error: a flag is given a value"

/-- The options given so far, each with its value; flags have an empty one. -/
abbrev Given := List (Flag × String)

/-- How far one place of a command line is read. -/
structure Progress where
  /-- The recorded options. -/
  given : Given := []
  /-- The last option while it is not recorded, with its value if it has one. -/
  pending : Option (Flag × Option String) := none
deriving Repr

namespace Progress

/-- Record an option. -/
def record (given : Given) (flag : Flag) (value : Option String) :
    Except Usage Given :=
  match value, flag.valueKind with
  | none, .path | none, .text => .error .missingValue
  | value, kind =>
    let value := value.getD ""
    if (given.lookup flag).isSome then .error .repeatedOption
    else if kind = .path ∧ value.isEmpty then .error .missingValue
    else .ok (given ++ [(flag, value)])

/-- The options given, the last one included. -/
def complete (p : Progress) : Except Usage Given :=
  match p.pending with
  | some (flag, value) => record p.given flag value
  | none => .ok p.given

/-- Whether the last option still waits for a value. -/
def waits (p : Progress) : Bool :=
  match p.pending with
  | some (_, none) => true
  | _ => false

/-- Add an option that is complete: a flag, or an option with its value attached. -/
def add (place : Place) (p : Progress) (flag : Flag) (value : Option String) :
    Except Usage Progress := do
  let given ← p.complete
  match flag with
  | .help => .error (.help (.ofPlace place))
  | .version => .error .version
  | flag => return { given := ← record given flag value }

/-- Add an option whose value is the next argument. -/
def await (p : Progress) (flag : Flag) : Except Usage Progress := do
  return { given := ← p.complete, pending := some (flag, none) }

/-- Add the option of an argument behind its two hyphens. -/
def addLong (place : Place) (p : Progress) (text : List Char) : Except Usage Progress :=
  let (name, value) :=
    match Text.cutWhere? (· == '=') text with
    | some (name, value) => (name, some (String.ofList value))
    | none => (text, none)
  match place.flags.find? fun flag => flag.longName.toList == name with
  | none => .error .unknownArgument
  | some flag =>
    match flag.valueKind, value with
    | .none, some _ => .error .valueForFlag
    | .none, none => p.add place flag none
    | _, some value => p.add place flag (some value)
    | _, none => p.await flag

/-- Add the options of an argument behind its hyphen: flags, of which the last one
may be an option with its value. -/
def addShort (place : Place) (p : Progress) : List Char → Except Usage Progress
  | [] => .ok p
  | c :: rest =>
    match place.flags.find? fun flag => flag.letter? == some c with
    | none => .error .unknownArgument
    | some flag =>
      match flag.valueKind, rest with
      | .none, rest => do addShort place (← p.add place flag none) rest
      | _, [] => p.await flag
      | _, '=' :: value => p.add place flag (some (String.ofList value))
      | _, value => p.add place flag (some (String.ofList value))

end Progress

/-- Where the reading of a place ends. -/
inductive Stop where
  /-- At the end of the command line. -/
  | atEnd (progress : Progress)
  /-- At a command, with the arguments behind it. -/
  | atCommand (progress : Progress) (name : CommandName) (rest : List String)

/-- Why the arguments behind the command for help show no help, or that they do. -/
def helpUsage : List String → Usage
  | [] => .help .program
  | [word] => ((HelpTopic.ofWord? word).map .help).getD .unknownCommand
  | _ => .unknownCommand

/-- What is wrong with an argument that is neither an option nor a value. Behind two
lone hyphens even a command is out of place. -/
def misplaced (place : Place) (behindHyphens : Bool) (argument : String) : Usage :=
  match place with
  | some _ => .unknownArgument
  | none =>
    if behindHyphens && (HelpTopic.ofWord? argument).isSome then .unknownArgument
    else .unknownCommand

/-- Read the arguments of a place. -/
def readPlace (place : Place) (p : Progress) : List String → Except Usage Stop
  | [] => .ok (.atEnd p)
  | argument :: rest =>
    if place.isNone && !p.waits && argument == HelpTopic.helpWord then .error (helpUsage rest)
    else
      match if place.isNone && !p.waits then CommandName.ofWord? argument else none with
      | some name => .ok (.atCommand p name rest)
      | none =>
        match argument.toList with
        | ['-', '-'] =>
          match rest with
          | [] => .ok (.atEnd p)
          | argument :: _ => .error (misplaced place true argument)
        | '-' :: '-' :: text => do readPlace place (← p.addLong place text) rest
        | '-' :: c :: text => do readPlace place (← p.addShort place (c :: text)) rest
        | _ =>
          match p.pending with
          | some (flag, none) =>
            readPlace place { p with pending := some (flag, some argument) } rest
          | _ => .error (misplaced place false argument)

/-! ## Commands -/

/-- The files of a document. -/
structure DocumentPaths where
  /-- The source text. -/
  source : String
  /-- The symbols reported for it. -/
  symbols : String
deriving DecidableEq, Repr

/-- Where tests are written. -/
structure TargetOptions where
  /-- The folder that is searched for projects. -/
  workspace : String
  /-- The name of the test project; without one the first test project is meant. -/
  testProject : Option String
deriving DecidableEq, Repr

/-- A command with its options. -/
inductive Command where
  /-- Print the classes of a document. -/
  | parse (document : DocumentPaths)
  /-- Print the test classes of a document, bare or in full. -/
  | generate (document : DocumentPaths) (bare : Bool)
  /-- Write the test classes of a document. -/
  | write (document : DocumentPaths) (target : TargetOptions)
  /-- Write the test classes of the documents that a manifest lists. -/
  | writeProject (manifest : String) (target : TargetOptions)
deriving DecidableEq, Repr

/-- What a command line asks for. -/
structure Invocation where
  /-- The command. -/
  command : Command
  /-- Whether notices are left out. -/
  quiet : Bool
  /-- A file with settings. -/
  config : Option String
deriving DecidableEq, Repr

namespace Command

/-- The document of some options. -/
def document? (given : Given) : Option DocumentPaths := do
  return ⟨← given.lookup .source, ← given.lookup .symbols⟩

/-- The target of some options. -/
def target? (given : Given) : Option TargetOptions := do
  return ⟨← given.lookup .workspace, given.lookup .testProject⟩

/-- The command of a name with some options; `none` when a required one is missing. -/
def ofGiven? (given : Given) : CommandName → Option Command
  | .parse => do return .parse (← document? given)
  | .generate => do return .generate (← document? given) (given.lookup .noUsings).isSome
  | .write => do return .write (← document? given) (← target? given)
  | .writeProject => do return .writeProject (← given.lookup .manifest) (← target? given)

end Command

namespace Invocation

/-- Read the arguments behind a command. -/
def ofRest (name : CommandName) (arguments : List String) :
    Except Usage (Command × Given) := do
  match ← readPlace (some name) {} arguments with
  | .atCommand .. => .error .unknownArgument
  | .atEnd p =>
    let given ← p.complete
    match Command.ofGiven? given name with
    | some command => return (command, given)
    | none => .error .missingOption

/-- Read a command line. Options that may stand on both sides of the command count
wherever they stand; of two files with settings the one behind it counts. -/
def ofArguments (arguments : List String) : Except Usage Invocation := do
  match ← readPlace none {} arguments with
  | .atEnd p =>
    let given ← p.complete
    .error (if given.isEmpty then .helpForNothing else .missingCommand)
  | .atCommand p name rest =>
    let (command, behind) ← ofRest name rest
    let given := behind ++ (← p.complete)
    return { command
             quiet := (given.lookup .quiet).isSome
             config := given.lookup .config }

end Invocation

end TestScaffold
