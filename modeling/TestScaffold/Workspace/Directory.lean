import TestScaffold.Text.Utf8
import TestScaffold.Workspace.Path
/-!
# Directories

A `Directory` is everything below one folder: its files with their bytes and its
folders. Files and folders are found by their *location*, the names on the way
to them.

Paths are looked up the way a file system does it. Each name but the last has to
be a folder that exists, `.` and `..` are steps like any other, and a slash at
the end asks for a folder. A name has at most 255 bytes and a path at most 4095,
and no path holds a null character. Nothing outside the directory is visible, so
absolute paths and paths that climb above the directory find nothing.

`write` is the only change: it gives a file new bytes, and everything else stays
as it is. A write that fails changes nothing.
-/

namespace TestScaffold

/-- The names on the way from a directory to something in it. -/
abbrev Location := List String

/-- What is at a location. -/
inductive Entry where
  /-- A file with its bytes. -/
  | file (bytes : List UInt8)
  /-- A folder. -/
  | folder
deriving DecidableEq, Repr

/-- Why a file cannot be read or written. -/
inductive FileError where
  /-- There is no such file, or no folder for it. -/
  | notFound
  /-- A file stands where the path needs a folder. -/
  | notFolder
  /-- The path means a folder. -/
  | isFolder
  /-- The bytes of the file are no text. -/
  | notText
  /-- The path, or a name in it, is too long. -/
  | nameTooLong
  /-- The path holds a null character. -/
  | nullInName
deriving DecidableEq, Repr

/-- What is wrong, in words. -/
def FileError.message : FileError → String
  | notFound => "No such file or directory (os error 2)"
  | notFolder => "Not a directory (os error 20)"
  | isFolder => "Is a directory (os error 21)"
  | notText => "stream did not contain valid UTF-8"
  | nameTooLong => "File name too long (os error 36)"
  | nullInName => "file name contained an unexpected NUL byte"

/-- The files and folders below one folder, each location at most once. -/
structure Directory where
  /-- What is at each location. -/
  entries : List (Location × Entry) := []
deriving DecidableEq

namespace Directory

/-! ## Locations -/

/-- What is at a location. The directory itself is a folder. -/
def lookup? (d : Directory) (location : Location) : Option Entry :=
  if location.isEmpty then some .folder else d.entries.lookup location

/-- Give a location a new entry. -/
def setEntry (location : Location) (entry : Entry) :
    List (Location × Entry) → List (Location × Entry)
  | [] => [(location, entry)]
  | (l, e) :: rest =>
    if l = location then (l, entry) :: rest else (l, e) :: setEntry location entry rest

/-- The directory with another entry at a location. -/
def set (d : Directory) (location : Location) (entry : Entry) : Directory :=
  ⟨setEntry location entry d.entries⟩

/-- The directory with a folder at a location, unless something is there. -/
def addFolder (d : Directory) (location : Location) : Directory :=
  match d.lookup? location with
  | some _ => d
  | none => d.set location .folder

/-- The directory with an entry at a location and folders on the way to it. -/
def insert (d : Directory) (location : Location) (entry : Entry) : Directory :=
  let withFolders := (List.range location.length).foldl
    (fun d length => d.addFolder (location.take length)) d
  withFolders.set location entry

/-! ## Paths -/

/-- The steps of a path. -/
def steps (path : String) : List String :=
  (Path.steps path.toList).map String.ofList

/-- Whether a path asks for a folder by a slash at its end. -/
def asksForFolder (path : String) : Bool :=
  path.toList.getLast? == some '/'

/-- Whether a location is a folder; else what a path through it meets. -/
def checkFolder (d : Directory) (location : Location) : Except FileError Unit :=
  match d.lookup? location with
  | some .folder => .ok ()
  | some (.file _) => .error .notFolder
  | none => .error .notFound

/-- The number of bytes that a name may have. -/
def nameLimit : Nat :=
  255

/-- The number of bytes that a path may have. -/
def pathLimit : Nat :=
  4095

/-- The location that some steps lead to from a location. All but the last step
pass through folders; the last one may lead to nothing. -/
def walk (d : Directory) (location : Location) : List String → Except FileError Location
  | [] => .ok location
  | step :: steps => do
    d.checkFolder location
    if step = "." then d.walk location steps
    else if step = ".." then
      if location.isEmpty then .error .notFound else d.walk location.dropLast steps
    else if nameLimit < step.utf8ByteSize then .error .nameTooLong
    else d.walk (location ++ [step]) steps

/-- Whether a path can be walked from the directory on. An absolute path cannot, whatever it
names, and one that climbs above the directory is refused on the way (`walk`): what is outside
is never found, even where there are files. -/
def checkPath (path : String) : Except FileError Unit :=
  if path.toList.contains '\x00' then .error .nullInName
  else if pathLimit < path.utf8ByteSize then .error .nameTooLong
  else if path.isEmpty || path.toList.head? == some '/' then .error .notFound
  else .ok ()

/-- The location that a path leads to, whether something is there or not. -/
def locate (d : Directory) (path : String) : Except FileError Location := do
  checkPath path
  d.walk [] (steps path)

/-- What a path means. -/
def find (d : Directory) (path : String) : Except FileError Entry := do
  let location ← d.locate path
  if asksForFolder path then d.checkFolder location
  match d.lookup? location with
  | some entry => .ok entry
  | none => .error .notFound

/-- Whether a path means anything. -/
def hasPath (d : Directory) (path : String) : Bool :=
  match d.find path with
  | .ok _ => true
  | .error _ => false

/-- Whether a path means a folder. -/
def hasFolder (d : Directory) (path : String) : Bool :=
  match d.find path with
  | .ok .folder => true
  | _ => false

/-- Whether a path means a file. -/
def hasFile (d : Directory) (path : String) : Bool :=
  match d.find path with
  | .ok (.file _) => true
  | _ => false

/-! ## Reading and writing -/

/-- The bytes of a file. -/
def readBytes (d : Directory) (path : String) : Except FileError (List UInt8) := do
  match ← d.find path with
  | .file bytes => .ok bytes
  | .folder => .error .isFolder

/-- The text of a file. -/
def readText (d : Directory) (path : String) : Except FileError String := do
  match Text.decode? (← d.readBytes path) with
  | some text => .ok text
  | none => .error .notText

/-- The location of a file to write. A path that asks for a folder is refused for
that as soon as the folder it lies in is found, whatever its last name is. -/
def locateFile (d : Directory) (path : String) : Except FileError Location := do
  if asksForFolder path then
    checkPath path
    d.checkFolder (← d.walk [] (steps path).dropLast)
    .error .isFolder
  let location ← d.locate path
  if d.lookup? location == some .folder then .error .isFolder
  else .ok location

/-- The directory after a text is written to a file, which may be a new one in a
folder that exists. All of the text is written or none of it: when the write is refused, the
file stays as it was. -/
def write (d : Directory) (path : String) (text : String) :
    Except FileError Directory := do
  return d.set (← d.locateFile path) (.file (Text.encode text))

/-! ## Small facts -/

theorem lookup_setEntry (location other : Location) (entry : Entry)
    (entries : List (Location × Entry)) :
    (setEntry location entry entries).lookup other
      = if other = location then some entry else entries.lookup other := by
  induction entries with
  | nil =>
    by_cases h : other = location
    · simp [setEntry, h]
    · simp [setEntry, h, List.lookup_cons, beq_eq_false_iff_ne.mpr h]
  | cons head rest ih =>
    obtain ⟨l, e⟩ := head
    by_cases hl : l = location
    · subst hl
      by_cases h : other = l
      · simp [setEntry, h]
      · simp [setEntry, h, List.lookup_cons, beq_eq_false_iff_ne.mpr h]
    · by_cases h : other = l
      · subst h
        simp [setEntry, hl]
      · simp [setEntry, hl, List.lookup_cons, beq_eq_false_iff_ne.mpr h, ih]

/-- **A new entry is seen at its own location and nowhere else.** -/
theorem lookup?_set (d : Directory) {location : Location} (other : Location)
    (entry : Entry) (h : location ≠ []) :
    (d.set location entry).lookup? other
      = if other = location then some entry else d.lookup? other := by
  unfold lookup? set
  by_cases ho : other = []
  · subst ho
    simp [Ne.symm h]
  · simp [ho, lookup_setEntry]

end Directory

end TestScaffold
