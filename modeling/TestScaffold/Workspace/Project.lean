import TestScaffold.Workspace.Visible
/-!
# Projects of a workspace

A project is a file with the extension `csproj`. Its name is that of the file; the
namespace of its code is the one the file names as root namespace, or else as
assembly name, or else the name of the project. It is a test project when it says
so.

`projectsIn` finds the projects of a workspace in the order of their paths, name
by name, and `selectTestProject?` selects the one that tests are written into.
-/

namespace TestScaffold

/-- A project. -/
structure Project where
  /-- The name of the project. -/
  name : String
  /-- The path of its file. -/
  path : String
  /-- The folder of its file. -/
  directory : String
  /-- The namespace of its code. -/
  defaultNamespace : String
  /-- Whether it holds tests. -/
  isTestProject : Bool
deriving DecidableEq, Repr

namespace Project

/-- The text between the first opening and the last closing tag of an element on
one line. -/
def elementOnLine? (name line : List Char) : Option (List Char) := do
  let (_, rest) ← Text.cutAt? (['<'] ++ name ++ ['>']) line
  let (text, _) ← Text.cutLastAt? (['<', '/'] ++ name ++ ['>']) rest
  return text

/-- The trimmed text of the first element of a name that ends on its own line, if
it is not blank. -/
def element? (name : String) (content : List Char) : Option (List Char) :=
  ((Text.splitWhere (· == '\n') content).findSome?
    (elementOnLine? name.toList)).bind fun text =>
      let trimmed := Text.trim text
      if trimmed.isEmpty then none else some trimmed

/-- The project of a file with a name, a path and a content. -/
def ofFile (fileName path content : String) : Project :=
  let chars := content.toList
  let name := String.ofList (Path.stem fileName.toList)
  let configured := element? "RootNamespace" chars <|> element? "AssemblyName" chars
  { name, path
    directory := String.ofList (Path.parent path.toList)
    defaultNamespace := (configured.map String.ofList).getD name
    isTestProject := Text.contains "<IsTestProject>true</IsTestProject>".toList chars }

/-- Whether a file of this name is that of a project. -/
def isProjectFile (name : String) : Bool :=
  Path.extension? name.toList == some "csproj".toList

end Project

/-- Whether one name stands in front of another one by the numbers of their
characters. -/
def namePrecedes (a b : String) : Bool :=
  List.lex a.toList b.toList fun c d => decide (c.toNat < d.toNat)

/-- Whether one location stands in front of another one or is the same: they are
compared name by name. -/
def Location.precedes (a b : Location) : Bool :=
  !List.lex b a namePrecedes

/-- The projects that a search in a workspace sees, in order. Files that are no text
are left out. A workspace that is no folder has none, not even an empty list of
them. -/
def projectsIn? (d : Directory) (user : UserFolders) (workspace : String) :
    Option (List Project) :=
  match d.hasFolder workspace, d.locate workspace with
  | true, .ok base =>
    let files := (d.visibleFiles user workspace base).mergeSort Location.precedes
    some (files.filterMap fun names => do
      let fileName ← names.getLast?
      guard (Project.isProjectFile fileName)
      let path := spellPath workspace names
      return Project.ofFile fileName path (← (d.readText path).toOption))
  | _, _ => none

/-- The test project of a given name, or else the first test project. -/
def selectTestProject? (projects : List Project) (name : Option String) :
    Option Project :=
  (projects.filter (·.isTestProject)).find? fun project =>
    match name with
    | some name => project.name == name
    | none => true

end TestScaffold
