import TestScaffold.Settings.Load
import TestScaffold.Workspace.Path
/-!
# Sessions

A command works on a directory and may give notices on the way. `Task` is what
such work is written in: it reads and changes a session and may fail, and what it
changed before a failure stays changed.
-/

namespace TestScaffold

/-- What was to be done with a file. -/
inductive FileTask where
  | readSource | readSymbols | readManifest | readTestFile
  | appendToTestFile | writeTestFile | writeUsings
deriving DecidableEq, Repr

/-- A task in words. -/
def FileTask.phrase : FileTask → String
  | readSource => "read source file"
  | readSymbols => "read symbols file"
  | readManifest => "read manifest"
  | readTestFile => "read test file"
  | appendToTestFile => "append to test file"
  | writeTestFile => "write test file"
  | writeUsings => "write usings file"

/-- Why a command fails. -/
inductive CommandError where
  /-- The settings cannot be loaded, maybe with those of a file asked for. -/
  | settings (file : Option String) (cause : SettingsError)
  /-- Something cannot be done with a file. -/
  | file (task : FileTask) (path : String) (cause : FileError)
  /-- A file holds no symbols, with what is wrong with its text. -/
  | invalidSymbols (path complaint : String)
  /-- A file holds no manifest, with what is wrong with its text. -/
  | invalidManifest (path complaint : String)
  /-- A workspace is no folder. -/
  | noWorkspace (path : String)
deriving DecidableEq, Repr

/-- Quote a path. -/
def quotePath (path : String) : String :=
  "'" ++ path ++ "'"

/-- What is wrong and what caused it, in words. -/
def CommandError.message : CommandError → String
  | settings none cause => "failed to load ddt config: " ++ cause.message
  | settings (some path) cause =>
    "failed to load config file " ++ quotePath path ++ ": " ++ cause.message
  | file task path cause =>
    "failed to " ++ task.phrase ++ " " ++ quotePath path ++ ": " ++ cause.message
  | invalidSymbols path complaint =>
    "invalid symbols file " ++ quotePath path ++ ": Symbol JSON error: " ++ complaint
      ++ ": " ++ complaint
  | invalidManifest path complaint =>
    "invalid manifest " ++ quotePath path ++ ": " ++ complaint
  | noWorkspace path => "workspace " ++ quotePath path ++ " is not a directory"

/-- What is wrong, without what is wrong with a JSON text. -/
def CommandError.summary : CommandError → String
  | invalidSymbols path _ =>
    "invalid symbols file " ++ quotePath path ++ ": Symbol JSON error"
  | invalidManifest path _ => "invalid manifest " ++ quotePath path ++ ": JSON error"
  | error => error.message

/-- What a command works on. -/
structure Session where
  /-- The directory. -/
  directory : Directory
  /-- The notices given so far. -/
  notices : List String := []
deriving DecidableEq

/-- Work on a session that may fail with an error. -/
abbrev Task := ExceptT CommandError (StateM Session)

namespace Task

/-- Read the text of a file. -/
def readText (task : FileTask) (path : String) : Task String := do
  match (← get).directory.readText path with
  | .ok text => return text
  | .error cause => throw (.file task path cause)

/-- Write a text to a file. -/
def writeText (task : FileTask) (path text : String) : Task Unit := do
  match (← get).directory.write path text with
  | .ok directory => modify fun s => { s with directory }
  | .error cause => throw (.file task path cause)

/-- Whether a path means anything. -/
def hasPath (path : String) : Task Bool := do
  return (← get).directory.hasPath path

/-- Give a notice, unless notices are left out. -/
def notice (quiet : Bool) (text : String) : Task Unit :=
  if quiet then pure ()
  else modify fun s => { s with notices := s.notices ++ [text] }

/-- Do some work and keep its error as a value. -/
def attempt {α : Type} (work : Task α) : Task (Except CommandError α) :=
  ExceptT.lift work.run

end Task

end TestScaffold
