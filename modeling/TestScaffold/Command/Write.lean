import TestScaffold.Command.Arguments
import TestScaffold.Command.Session
import TestScaffold.Document.Intake
import TestScaffold.Suite.TestClass
import TestScaffold.Workspace.Project
/-!
# Writing test classes

A test class is written into the folder of the test project, into a file of its
own when there is none yet. An existing file keeps its text: the test class is
added behind it, under a longer name and without usings and namespace. After that
the project gets a file with global usings unless it has one.

`writeDocuments` writes many documents and goes on behind one that fails; what the
failing document wrote stays written but is not reported.
-/

namespace TestScaffold

/-- What became of a file. -/
inductive WriteAction where
  | created
  | appended
deriving DecidableEq, Repr

/-- A test class that was written. -/
structure WrittenFile where
  /-- The path of the file. -/
  path : String
  /-- The name of the test class as written. -/
  className : String
  /-- Whether the file is new. -/
  action : WriteAction
deriving DecidableEq, Repr

/-- Where tests are written, and how. -/
structure Target where
  /-- The test project. -/
  project : Project
  /-- The settings, with a target namespace. -/
  settings : GenerateSettings
deriving DecidableEq, Repr

/-- A document that could not be written. -/
structure DocumentFailure where
  /-- The path of its source text. -/
  source : String
  /-- What went wrong. -/
  error : CommandError
deriving DecidableEq, Repr

/-- What was written. -/
structure WriteReport where
  /-- The test project and the settings. -/
  target : Target
  /-- The test classes in order. -/
  files : List WrittenFile
  /-- The file with global usings, if it is new. -/
  usingsFile : Option String
  /-- The documents that could not be written. -/
  failures : List DocumentFailure
deriving DecidableEq, Repr

/-- The classes of a document. -/
def loadDocument (ignored : List String) (document : DocumentPaths) : Task Intake := do
  let source ← Task.readText .readSource document.source
  let symbols ← Task.readText .readSymbols document.symbols
  match DocumentSymbol.listOfJsonText? symbols with
  | some symbols => return intake source symbols ignored
  | none =>
    throw (.invalidSymbols document.symbols (DocumentSymbol.listComplaint symbols))

/-- The test classes of a document. When there are none, a notice gives the
reason. -/
def loadTestClasses (quiet : Bool) (ignored : List String) (document : DocumentPaths) :
    Task (List Suite.TestClass) := do
  let parsed ← loadDocument ignored document
  let tests := Suite.testClasses parsed.classes
  match Suite.missingReason? parsed.classes tests with
  | some reason =>
    Task.notice quiet (document.source ++ ": " ++ reason.message)
    return []
  | none => return tests

/-! ## The target -/

/-- The settings for a project: without a target namespace, tests are in the
namespace of the project. -/
def GenerateSettings.forProject (settings : GenerateSettings) (project : Project) :
    GenerateSettings :=
  if (settings.targetProjectNamespace.getD "").isEmpty then
    { settings with targetProjectNamespace := some project.defaultNamespace }
  else settings

/-- The target that some options select. When there is no such test project, a
notice tells so. -/
def resolveTarget (quiet : Bool) (user : UserFolders) (settings : GenerateSettings)
    (options : TargetOptions) : Task (Option Target) := do
  match projectsIn? (← get).directory user options.workspace with
  | none => throw (.noWorkspace options.workspace)
  | some projects =>
    match selectTestProject? projects options.testProject with
    | some project => return some ⟨project, settings.forProject project⟩
    | none =>
      Task.notice quiet (options.workspace ++ ": no test project found")
      return none

/-! ## Files -/

/-- Write a test class into a folder. -/
def writeTestClass (folder : String) (settings : GenerateSettings) (t : Suite.TestClass) :
    Task WrittenFile := do
  let path := joinPath folder t.fileName
  if ← Task.hasPath path then
    let old ← Task.readText .readTestFile path
    let longer := t.withPrefix settings.testClassNamePrefixIfFileExists
    Task.writeText .appendToTestFile path (old ++ "\n\n" ++ longer.bare settings)
    return ⟨path, longer.name, .appended⟩
  else
    Task.writeText .writeTestFile path (t.full settings)
    return ⟨path, t.name, .created⟩

/-- Write some test classes into a folder, up to the first one that fails. -/
def writeTestClasses (folder : String) (settings : GenerateSettings) :
    List Suite.TestClass → Task (List WrittenFile)
  | [] => return []
  | t :: tests => do
    let file ← writeTestClass folder settings t
    return file :: (← writeTestClasses folder settings tests)

/-- Give a folder a file with global usings unless it has one. The path is that of a
new file. -/
def ensureUsingsFile (folder : String) (settings : GenerateSettings) :
    Task (Option String) := do
  let path := joinPath folder settings.usingsFileName
  if ← Task.hasPath path then return none
  Task.writeText .writeUsings path settings.usingsFileContent
  return some path

/-! ## Documents -/

/-- Write the test classes of a document. -/
def writeDocument (quiet : Bool) (ignored : List String) (target : Target)
    (document : DocumentPaths) : Task (List WrittenFile) := do
  let tests ← loadTestClasses quiet ignored document
  writeTestClasses target.project.directory target.settings tests

/-- Write the test classes of some documents, with what was written and the
documents that failed. -/
def writeEach (quiet : Bool) (ignored : List String) (target : Target) :
    List DocumentPaths → Task (List WrittenFile × List DocumentFailure)
  | [] => return ([], [])
  | document :: documents => do
    let result ← Task.attempt (writeDocument quiet ignored target document)
    let (files, failures) ← writeEach quiet ignored target documents
    match result with
    | .ok written => return (written ++ files, failures)
    | .error error => return (files, ⟨document.source, error⟩ :: failures)

/-- The file with global usings that a project gets when something was written. -/
def usingsAfter (target : Target) (files : List WrittenFile) : Task (Option String) :=
  if files.isEmpty then pure none
  else ensureUsingsFile target.project.directory target.settings

/-- Write the test classes of some documents and the global usings they need. -/
def writeDocuments (quiet : Bool) (ignored : List String) (target : Target)
    (documents : List DocumentPaths) : Task WriteReport := do
  let (files, failures) ← writeEach quiet ignored target documents
  return { target, files, usingsFile := ← usingsAfter target files, failures }

end TestScaffold
