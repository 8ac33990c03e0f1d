import TestScaffold.Text.Blank
import TestScaffold.Text.Cut
/-!
# Path texts

Paths are handled as the texts they are given as: nothing is made absolute or
normalised, so that what a user reads in a message is spelled as the user spelled
it. `join` and `parent` are each other's counterparts on plain paths.

What a path means is said in the directory it is looked up in.
-/

namespace TestScaffold.Path

/-- Whether a path begins at the root of the file system. -/
def isAbsolute (path : List Char) : Bool :=
  path.head? == some '/'

/-- A path below another one. An absolute path stands for itself. -/
def join (base path : List Char) : List Char :=
  if isAbsolute path then path
  else if base.isEmpty || base.getLast? == some '/' then base ++ path
  else base ++ '/' :: path

/-- The path without slashes and lone dots at its end. A single dot at the very
beginning stays. -/
def dropTrailing (path : List Char) : List Char :=
  go path.reverse
where
  /-- The same for a path in reverse. -/
  go : List Char → List Char
    | [] => []
    | ['/'] => ['/']
    | '/' :: rest => go rest
    | ['.', '/'] => ['/']
    | '.' :: '/' :: rest => go rest
    | path => path.reverse

/-- The path of the folder that a path lies in. The folder of a bare name is the
empty path. -/
def parent (path : List Char) : List Char :=
  let path := dropTrailing path
  match Text.cutLastWhere? (· == '/') path with
  | none => []
  | some ([], []) => []
  | some ([], _) => ['/']
  | some (folder, _) => dropTrailing folder

/-! ## File names -/

/-- The parts of a file name around its last dot. A name with no other dot than one
at its beginning has no extension. -/
def cutExtension? (name : List Char) : Option (List Char × List Char) :=
  (Text.cutLastWhere? (· == '.') name).filter fun (stem, _) => !stem.isEmpty

/-- The extension of a file name. -/
def extension? (name : List Char) : Option (List Char) :=
  (cutExtension? name).map Prod.snd

/-- A file name without its extension. -/
def stem (name : List Char) : List Char :=
  ((cutExtension? name).map Prod.fst).getD name

/-! ## Spelling -/

/-- The steps of a path. -/
def steps (path : List Char) : List (List Char) :=
  (Text.splitWhere (· == '/') path).filter fun step => !step.isEmpty

/-- A path without `./` at its beginning. -/
def dropDot (path : List Char) : List Char :=
  (Text.stripStart? ['.', '/'] path).getD path

/-- Whether a path means the place it begins at and is not empty. -/
def isDot (path : List Char) : Bool :=
  !path.isEmpty && !isAbsolute path && (steps path).all (· == ['.'])

/-- Whether a path is a lone hyphen, which means the standard input. -/
def isStandardInput (path : List Char) : Bool :=
  match steps path with
  | step :: rest => !isAbsolute path && step == ['-'] && rest.all (· == ['.'])
  | [] => false

/-- A path as it is spelled from one of the folders in it. Both spellings may begin
with `./`, which is dropped once from that of the folder and twice from that of the
path. The path stays as it is when it does not begin with the folder then. -/
def seenFrom (folder path : List Char) : List Char :=
  let folder := dropDot folder
  let path := dropDot (dropDot path)
  if isDot folder || !path.contains '/' then path
  else
    match Text.stripStart? folder path with
    | some rest => (Text.stripStart? ['/'] rest).getD rest
    | none => path

end TestScaffold.Path

namespace TestScaffold

/-- A path below another one. -/
def joinPath (base path : String) : String :=
  String.ofList (Path.join base.toList path.toList)

/-- A path below another one, given by the names on the way. -/
def spellPath (base : String) (names : List String) : String :=
  names.foldl joinPath base

end TestScaffold
