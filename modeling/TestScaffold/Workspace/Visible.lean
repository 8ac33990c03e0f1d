import TestScaffold.Ignore.Rule
import TestScaffold.Workspace.Repository
import TestScaffold.Workspace.User
/-!
# Visible files

What a search for files sees. Ignore files hide files and whole folders below
their own folder, and the ignore file nearest to a path decides about it:

* `.ignore` files always count and come first;
* `.gitignore` files and then the ignore files of repositories count inside of a
  repository, no further up than the folder of the repository;
* the ignore file of the user comes last and counts inside of a repository, too.

A file is visible in a workspace when neither it nor a folder between them is
ignored. Nothing is hidden by its name alone. A workspace that is spelled `-` means
the standard input, where no files are.

A search spells paths from the workspace on, as that was given. Ignore files inside
of the workspace are asked about these spellings, those further up about the names
on the way.
-/

namespace TestScaffold.Directory

/-- A folder, and a path below it as spelled from there. -/
structure View where
  /-- The path of the folder. -/
  folder : String
  /-- The path as seen from the folder. -/
  path : List Char
deriving DecidableEq, Repr

/-- The folders that a location lies in, the nearest one first. -/
def foldersAround (location : Location) : List Location :=
  ((List.range location.length).map location.take).reverse

/-- The views of a path from the folders between it and a workspace, given by the
names on the way. -/
def innerViews (workspace : String) (names : List String) : List View :=
  (foldersAround names).map fun folder =>
    let folder := spellPath workspace folder
    ⟨folder, Path.seenFrom folder.toList (spellPath workspace names).toList⟩

/-- The views of a path from the folders around the location of a workspace. -/
def outerViews (base : Location) (names : List String) : List View :=
  (foldersAround base).map fun folder =>
    ⟨"/".intercalate folder, ("/".intercalate ((base ++ names).drop folder.length)).toList⟩

/-- The rules of an ignore file; none if there is no such file. -/
def rulesIn (d : Directory) (path : String) : List IgnoreRule :=
  match d.readBytes path with
  | .ok bytes => IgnoreRule.ofFile bytes
  | .error _ => []

/-- What some rules say about a path. -/
def verdict? (rules : List IgnoreRule) (path : List Char) (isFolder : Bool) :
    Option Bool :=
  IgnoreRule.verdict? rules (Text.encode (String.ofList path)) isFolder

/-- What the nearest ignore file that is about a path says about it. -/
def nearestVerdict? (d : Directory) (ignoreFile? : String → Option String)
    (views : List View) (isFolder : Bool) : Option Bool :=
  views.findSome? fun view =>
    (ignoreFile? view.folder).bind fun file => verdict? (d.rulesIn file) view.path isFolder

/-- The views up to that from the folder of the repository; none if there is no
repository. -/
def repositoryViews (d : Directory) (views : List View) : List View :=
  match Text.cutWhere? (fun view => d.isRepository view.folder) views with
  | some (inside, _) => views.take (inside.length + 1)
  | none => []

/-- Whether a search in a workspace at a location ignores a path in it, the folders
between them apart. -/
def isIgnored (d : Directory) (user : UserFolders) (workspace : String) (base : Location)
    (names : List String) : Bool :=
  let isFolder := d.lookup? (base ++ names) == some .folder
  let views := innerViews workspace names ++ outerViews base names
  let inRepository := d.repositoryViews views
  let byUser :=
    if inRepository.isEmpty then none
    else verdict? (d.rulesIn (user.ignoreFile d))
      (Path.dropDot (Path.dropDot (spellPath workspace names).toList)) isFolder
  let verdict :=
    d.nearestVerdict? (fun folder => some (joinPath folder ".ignore")) views isFolder
      <|> d.nearestVerdict? (fun folder => some (joinPath folder ".gitignore")) inRepository
        isFolder
      <|> d.nearestVerdict? d.excludeFile? inRepository isFolder
      <|> byUser
  verdict == some true

/-- The files that a search in a workspace at a location sees, by the names on the
way. -/
def visibleFiles (d : Directory) (user : UserFolders) (workspace : String)
    (base : Location) : List (List String) :=
  if Path.isStandardInput workspace.toList then []
  else
    d.entries.filterMap fun (location, entry) =>
      let names := location.drop base.length
      let isVisible := entry != .folder && base.isPrefixOf location
        && (List.range names.length).all fun n =>
          !d.isIgnored user workspace base (names.take (n + 1))
      if isVisible then some names else none

end TestScaffold.Directory
