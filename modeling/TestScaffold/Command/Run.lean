import TestScaffold.Command.Manifest
import TestScaffold.Command.Report
/-!
# Running commands

`runArguments` is the whole program: it reads a command line, loads the settings
and runs the command on a directory. What comes out is the directory, the notices
and either a text to print, an error or the reason why no command was run.
-/

namespace TestScaffold

/-- Print the classes of a document. -/
def runParse (settings : Settings) (document : DocumentPaths) : Task String := do
  let parsed ← loadDocument settings.parse.methodNamesToIgnore document
  return reportText parsed.toJson

/-- Print the test classes of a document. -/
def runGenerate (quiet : Bool) (settings : Settings) (document : DocumentPaths)
    (bare : Bool) : Task String := do
  let tests ← loadTestClasses quiet settings.parse.methodNamesToIgnore document
  if tests.isEmpty then return ""
  let rendered := tests.map fun t =>
    if bare then t.bare settings.generate else t.full settings.generate
  return "\n\n".intercalate rendered ++ "\n"

/-- Write the test classes of a document. Nothing is printed when it has none. -/
def runWrite (quiet : Bool) (user : UserFolders) (settings : Settings)
    (document : DocumentPaths) (options : TargetOptions) : Task String := do
  match ← resolveTarget quiet user settings.generate options with
  | none => return ""
  | some target =>
    let files ← writeDocument quiet settings.parse.methodNamesToIgnore target document
    if files.isEmpty then return ""
    let usingsFile ← usingsAfter target files
    return reportText (WriteReport.toJson { target, files, usingsFile, failures := [] })

/-- Write the test classes of the documents in a manifest. -/
def runWriteProject (quiet : Bool) (user : UserFolders) (settings : Settings)
    (manifest : String) (options : TargetOptions) : Task String := do
  let documents ← readManifest manifest
  match ← resolveTarget quiet user settings.generate options with
  | none => return ""
  | some target =>
    let report ← writeDocuments quiet settings.parse.methodNamesToIgnore target documents
    return reportText report.toJson

/-- Run a command; the result is what it prints. -/
def Command.run (quiet : Bool) (user : UserFolders) (settings : Settings) :
    Command → Task String
  | parse document => runParse settings document
  | generate document bare => runGenerate quiet settings document bare
  | write document options => runWrite quiet user settings document options
  | writeProject manifest options => runWriteProject quiet user settings manifest options

/-- What a program finds around it, its directory apart. -/
structure Surroundings where
  /-- The environment variables. -/
  environment : Environment
  /-- The folders of the user. -/
  user : UserFolders
deriving DecidableEq, Repr

/-- Load the settings that an invocation asks for. -/
def Invocation.loadSettings (invocation : Invocation) (around : Surroundings) :
    Task Settings := do
  let d := (← get).directory
  let environment := Settings.withEnvironmentFile d around.environment
  match Settings.load d environment around.user.settingsFile invocation.config with
  | .ok settings => return settings
  | .error cause => throw (.settings invocation.config cause)

/-- Run what a command line asks for. -/
def Invocation.run (invocation : Invocation) (around : Surroundings) : Task String := do
  let settings ← invocation.loadSettings around
  invocation.command.run invocation.quiet around.user settings

/-! ## The program -/

/-- How a run of the program ends. -/
inductive Ending where
  /-- No command was run. -/
  | usage (reason : Usage)
  /-- A command failed. -/
  | failed (error : CommandError)
  /-- A command succeeded and prints a text. -/
  | done (output : String)
deriving DecidableEq, Repr

/-- Whether help or the version was asked for. -/
def Usage.isAnswer : Usage → Bool
  | help _ | version => true
  | _ => false

/-- The exit code of the program. -/
def Ending.exitCode : Ending → UInt32
  | usage reason => if reason.isAnswer then 0 else 2
  | failed _ => 1
  | done _ => 0

/-- A run of the program. -/
structure Run where
  /-- How it ends. -/
  ending : Ending
  /-- The directory behind it and the notices it gave. -/
  session : Session
deriving DecidableEq

namespace Run

/-- What is printed: the text of the command, or the answer to what was asked. -/
def output (run : Run) : String :=
  match run.ending with
  | .done output => output
  | .usage reason => if reason.isAnswer then reason.message ++ "\n" else ""
  | .failed _ => ""

/-- The notices, one on a line. -/
def notices (run : Run) : String :=
  String.join (run.session.notices.map fun notice => notice ++ "\n")

/-- The notices and what went wrong, one on a line. -/
def complaints (run : Run) : String :=
  match run.ending with
  | .failed error => run.notices ++ "ddt error: " ++ error.message ++ "\n"
  | .usage reason => if reason.isAnswer then "" else reason.message ++ "\n"
  | .done _ => run.notices

end Run

/-- Run the program with a command line on a directory. -/
def runArguments (around : Surroundings) (arguments : List String) (d : Directory) : Run :=
  match Invocation.ofArguments arguments with
  | .error reason => ⟨.usage reason, { directory := d }⟩
  | .ok invocation =>
    match (invocation.run around).run.run { directory := d } with
    | (.ok output, session) => ⟨.done output, session⟩
    | (.error error, session) => ⟨.failed error, session⟩

end TestScaffold
