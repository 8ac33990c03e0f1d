import TestScaffold.Text.Blank
import TestScaffold.Text.Cut
/-!
# Peeling a declaration

In front of a declaration stand its attributes and its modifiers, behind it its
`where` clauses. Each function of this module takes one kind of these away and
says what it found. Nothing found is `none`, never the empty list.
-/

namespace TestScaffold.Declaration

/-- A text with some of its parts taken away. -/
structure Peeled where
  /-- What is left. -/
  rest : List Char
  /-- The parts that were taken away; `none` when there were none. -/
  found : Option (List String)
deriving DecidableEq, Repr

/-- A list that says nothing when it is empty. -/
def nonEmpty? (found : List String) : Option (List String) :=
  if found.isEmpty then none else some found

/-! ## Attributes -/

/-- Peel attributes off the rest of a text, with `depth` brackets open, `since`
read after the last group or opening bracket and `found` taken away so far. A
surplus closing bracket makes the depth negative. -/
def peelGroups (depth : Int) (since : List Char) (found : List String) :
    List Char → List Char × List String
  | [] => (since, found)
  | c :: rest =>
    if c = '[' then
      if depth = 0 then peelGroups 1 [] found rest
      else peelGroups (depth + 1) (since ++ [c]) found rest
    else if c = ']' then
      if depth = 1 then
        peelGroups 0 [] (found ++ [String.ofList (Text.trim since)]) rest
      else peelGroups (depth - 1) (since ++ [c]) found rest
    else if depth = 0 ∧ Text.isBlank c = false then (since ++ c :: rest, found)
    else peelGroups depth (since ++ [c]) found rest

/-- Take the run of leading bracket groups away. A text without any `[` stays as
it is, blanks included. -/
def peelAttributes (text : List Char) : Peeled :=
  if text.contains '[' then
    let (rest, found) := peelGroups 0 [] [] text
    ⟨Text.trim rest, nonEmpty? found⟩
  else ⟨text, none⟩

/-! ## Keywords -/

/-- The modifiers that may lead a class, constructor or method declaration. -/
def symbolKeywords : List String :=
  ["abstract", "async", "extern", "file", "internal", "new", "override",
    "partial", "private", "protected", "public", "sealed", "static", "unsafe",
    "virtual"]

/-- The first word of the vocabulary that leads the text with a space behind it,
and what follows that space. -/
def leadingWord? (vocabulary : List String) (text : List Char) :
    Option (String × List Char) :=
  vocabulary.findSome? fun word =>
    (Text.stripStart? (word.toList ++ [' ']) text).map (word, ·)

theorem length_of_leadingWord? {vocabulary : List String} {text after : List Char}
    {word : String} (h : leadingWord? vocabulary text = some (word, after)) :
    after.length < text.length := by
  obtain ⟨w, -, hw⟩ := List.exists_of_findSome?_eq_some h
  obtain ⟨rest, hs, he⟩ := Option.map_eq_some_iff.mp hw
  cases he
  rw [Text.stripStart?_eq_some_iff.mp hs]
  simp only [List.length_append, List.length_cons, List.length_nil]
  omega

/-- The words of the vocabulary that lead a trimmed text, and what is left. -/
def peelWords (vocabulary : List String) (text : List Char) :
    List String × List Char :=
  match _h : leadingWord? vocabulary text with
  | some (word, after) =>
    let (words, rest) := peelWords vocabulary (Text.trim after)
    (word :: words, rest)
  | none => ([], text)
termination_by text.length
decreasing_by
  exact Nat.lt_of_le_of_lt (Text.length_trim_le _) (length_of_leadingWord? _h)

/-- Take the leading words of the vocabulary away. A word only counts with a
space behind it. -/
def peelKeywords (vocabulary : List String) (text : List Char) : Peeled :=
  let (words, rest) := peelWords vocabulary (Text.trim text)
  ⟨rest, nonEmpty? words⟩

/-! ## Constraints -/

/-- The word in front of each constraint clause. -/
def whereWord : List Char :=
  " where ".toList

/-- Take the trailing `where` clauses away. The clauses are found by their text
alone, inside brackets too. -/
def peelConstraints (text : List Char) : Peeled :=
  match Text.cutAt? whereWord text with
  | none => ⟨Text.trim text, none⟩
  | some (head, tail) =>
    let tail := Text.trim tail
    let clauses := (Text.splitAt whereWord tail).map fun c => String.ofList (Text.trim c)
    ⟨Text.trim head, if tail.isEmpty then none else some clauses⟩

end TestScaffold.Declaration
