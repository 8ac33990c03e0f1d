import TestScaffold.Text.Line
import TestScaffold.Workspace.Directory
/-!
# Repositories

A folder is that of a repository when it holds `.git` or `.jj`. The files that
belong to the repository itself are in `.git`, unless that is a file: then it names
a folder, and a file in there names the folder that the repository shares with
other working copies.
-/

namespace TestScaffold.Directory

/-- Whether a folder is that of a repository. -/
def isRepository (d : Directory) (folder : String) : Bool :=
  d.hasPath (joinPath folder ".git") || d.hasPath (joinPath folder ".jj")

/-- The first line of a file. -/
def firstLine? (d : Directory) (path : String) : Option String :=
  match d.readBytes path with
  | .ok bytes => (Text.linesOfBytes bytes).head?.join.map fun line =>
    String.ofList (Text.dropBreak line)
  | .error _ => none

/-- The folder that a working copy shares with others, named in the folder that the
`.git` file of the working copy names. A path that begins with a dot begins there. -/
def sharedFolder? (d : Directory) (gitFile : String) : Option String := do
  let named ← Text.stripStart? "gitdir: ".toList (← d.firstLine? gitFile).toList
  let named := String.ofList named
  let shared ← d.firstLine? (joinPath named "commondir")
  return if shared.toList.head? = some '.' then joinPath named shared else shared

/-- The ignore file of the repository in a folder. -/
def excludeFile? (d : Directory) (folder : String) : Option String :=
  let git := joinPath folder ".git"
  let inside := if d.hasFile git then d.sharedFolder? git else some git
  inside.map fun inside => joinPath inside "info/exclude"

end TestScaffold.Directory
