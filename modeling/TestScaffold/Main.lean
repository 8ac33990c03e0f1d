import TestScaffold.Command.Run
/-!
# The program

The program works on the files below the folder it is started in: they are read,
the command line is run on them, and the files that changed are written back.
-/

namespace TestScaffold

/-- The names in a path below a folder. -/
def namesBelow (folder path : String) : Location :=
  (Directory.steps path).drop (Directory.steps folder).length

/-- The files and folders below the current folder. -/
def readDirectory : IO Directory := do
  let root ← IO.currentDir
  let mut d : Directory := {}
  for path in ← root.walkDir do
    let location := namesBelow root.toString path.toString
    if ← path.isDir then d := d.insert location .folder
    else d := d.insert location (.file (← IO.FS.readBinFile path).data.toList)
  return d

/-- Write the files that changed back. -/
def writeDirectory (before after : Directory) : IO Unit :=
  for (location, entry) in after.entries do
    match entry with
    | .file bytes =>
      if before.lookup? location != some entry then
        IO.FS.writeBinFile ("/".intercalate location) ⟨bytes.toArray⟩
    | .folder => pure ()

/-- The variables in the file that holds the environment of the program. -/
def readEnvironment : IO Environment := do
  let bytes ← IO.FS.readBinFile "/proc/self/environ"
  let entries := (Text.splitWhere (· == 0) bytes.data.toList).filterMap Text.decode?
  return entries.filterMap fun text =>
    (Text.cutWhere? (· == '=') text.toList).map fun (name, value) =>
      (String.ofList name, String.ofList value)

/-- The folders of the user. -/
def userFolders (environment : Environment) : UserFolders :=
  let home := environment.lookup "HOME"
  { config := (environment.lookup "XDG_CONFIG_HOME").getD
      (joinPath (home.getD "") ".config")
    home }

end TestScaffold

open TestScaffold in
/-- Run the program. -/
def main (arguments : List String) : IO UInt32 := do
  let environment ← readEnvironment
  let before ← readDirectory
  let around := { environment, user := userFolders environment }
  let run := runArguments around arguments before
  writeDirectory before run.session.directory
  (← IO.getStdout).putStr run.output
  (← IO.getStderr).putStr run.complaints
  return run.ending.exitCode
