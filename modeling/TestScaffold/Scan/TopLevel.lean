import TestScaffold.Text.Blank
import TestScaffold.Scan.Literal
import TestScaffold.Scan.Bracket
/-!
# The top level of a text

A character of a declaration stands *at the top level* when it is no bracket
and no quote, lies outside every literal, and no bracket is open around it. So
the comma of `Dictionary<string, int>` or of `(int, int)` is not at the top
level, nor is one in a string.

`marks` says of every character of a text whether it stands there. Splitting
and searching are plain list operations on the marked characters.
-/

namespace TestScaffold.Scan

/-- A reader of declaration text between two characters. -/
structure Reader where
  /-- Where the reader stands with respect to the literals. -/
  literal : Literal
  /-- How many brackets outside literals are open. -/
  depth : Nat
deriving DecidableEq, Repr

namespace Reader

/-- In front of a text: outside literals and brackets. -/
def start : Reader :=
  ⟨.code, 0⟩

/-- The reader behind the next character. Brackets inside literals do not
count. -/
def step (r : Reader) (c : Char) : Reader :=
  { literal := r.literal.step c
    depth := if r.literal.isOutside then depthAfter r.depth c else r.depth }

/-- Whether the next character stands at the top level. -/
def atTop (r : Reader) (c : Char) : Bool :=
  r.literal.isOutside && r.depth == 0
    && !(isOpening c || isClosing c || c == '"' || c == '\'')

/-- The characters of a text, each with whether it stands at the top level. -/
def marks (r : Reader) : List Char → List (Char × Bool)
  | [] => []
  | c :: rest => (c, r.atTop c) :: (r.step c).marks rest

/-- The reader behind a whole text. -/
def run (r : Reader) (text : List Char) : Reader :=
  text.foldl step r

end Reader

/-- The characters of a text, each with whether it stands at the top level. -/
def marks (text : List Char) : List (Char × Bool) :=
  Reader.start.marks text

/-- Whether a marked character is `c` at the top level. -/
def isMark (c : Char) (m : Char × Bool) : Bool :=
  m.2 && m.1 == c

/-- The untrimmed pieces of a text between the top-level occurrences of
`delimiter`. -/
def pieces (delimiter : Char) (text : List Char) : List (List Char) :=
  (Text.splitWhere (isMark delimiter) (marks text)).map (·.map Prod.fst)

/-- The trimmed pieces of a text between the top-level occurrences of
`delimiter`; there is always at least one. -/
def split (delimiter : Char) (text : List Char) : List (List Char) :=
  (pieces delimiter text).map Text.trim

/-- Forget the marks on both sides of a cut. -/
def unmark : List (Char × Bool) × List (Char × Bool) → List Char × List Char
  | (before, after) => (before.map Prod.fst, after.map Prod.fst)

/-- Cut at the first top-level `needle`. -/
def cutFirst? (needle : Char) (text : List Char) :
    Option (List Char × List Char) :=
  (Text.cutWhere? (isMark needle) (marks text)).map unmark

/-- Cut at the last top-level `needle`. -/
def cutLast? (needle : Char) (text : List Char) :
    Option (List Char × List Char) :=
  (Text.cutLastWhere? (isMark needle) (marks text)).map unmark

/-! ## Byte offsets -/

/-- The top-level characters among marked ones, each with its byte offset, the
first character standing at `offset`. -/
def offsetsFrom : Nat → List (Char × Bool) → List (Nat × Char)
  | _, [] => []
  | offset, (c, top) :: rest =>
    let others := offsetsFrom (offset + c.utf8Size) rest
    if top then (offset, c) :: others else others

/-- The top-level characters of a text with their byte offsets. -/
def topLevelChars (text : List Char) : List (Nat × Char) :=
  offsetsFrom 0 (marks text)

/-- Byte offset of the first top-level `needle`. -/
def find? (needle : Char) (text : List Char) : Option Nat :=
  (cutFirst? needle text).map fun (before, _) => Text.byteLength before

/-- Byte offset of the last top-level `needle`. -/
def findLast? (needle : Char) (text : List Char) : Option Nat :=
  (cutLast? needle text).map fun (before, _) => Text.byteLength before

/-! ## Small facts -/

@[simp]
theorem Reader.marks_nil (r : Reader) : r.marks [] = [] := rfl

@[simp]
theorem Reader.marks_cons (r : Reader) (c : Char) (text : List Char) :
    r.marks (c :: text) = (c, r.atTop c) :: (r.step c).marks text := rfl

/-- **Marking changes no character.** -/
@[simp]
theorem Reader.map_fst_marks (r : Reader) (text : List Char) :
    (r.marks text).map Prod.fst = text := by
  induction text generalizing r with
  | nil => rfl
  | cons c text ih => simp [ih]

@[simp]
theorem Reader.length_marks (r : Reader) (text : List Char) :
    (r.marks text).length = text.length := by
  have h := congrArg List.length (r.map_fst_marks text)
  rwa [List.length_map] at h

/-- **Pieces are no longer than their text.** -/
theorem length_of_mem_split {delimiter : Char} {text piece : List Char}
    (h : piece ∈ split delimiter text) : piece.length ≤ text.length := by
  simp only [split, pieces, List.map_map, List.mem_map, Function.comp_apply] at h
  obtain ⟨marked, hm, rfl⟩ := h
  calc
    _ ≤ (marked.map Prod.fst).length := Text.length_trim_le _
    _ = marked.length := List.length_map ..
    _ ≤ (marks text).length := Text.length_of_mem_splitWhere _ _ _ hm
    _ = text.length := Reader.length_marks ..

end TestScaffold.Scan
