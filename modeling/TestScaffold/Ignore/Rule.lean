import TestScaffold.Ignore.Glob
import TestScaffold.Text.Cut
import TestScaffold.Text.Line
/-!
# Ignore rules

An ignore file holds one rule on a line, each about the paths below the folder of
the file:

* blank lines and lines that begin with `#` are no rules;
* a rule with `!` in front takes paths back that earlier rules ignore;
* a rule with a slash at the end is about folders only;
* a rule with a slash at the beginning or inside is about the path from the
  folder of the file on, any other one about names at any depth.

Of the rules that match a path the last one decides. A line whose pattern cannot be
read is no rule; a pattern that nests too deep takes the whole file with it.
-/

namespace TestScaffold

/-- A rule of an ignore file. -/
structure IgnoreRule where
  /-- The paths the rule is about. -/
  glob : Glob
  /-- Whether the rule takes paths back. -/
  isException : Bool
  /-- Whether the rule is about folders only. -/
  foldersOnly : Bool

namespace IgnoreRule

/-- A line without the blanks at its end, unless the last one is escaped. -/
def trimLine (line : List Char) : List Char :=
  if line.drop (line.length - 2) = ['\\', ' '] then line else Text.trimEnd line

/-- What the beginning of a rule says: whether the rule is an exception, whether a
slash stands in front, and the rest. -/
def cutMarks : List Char → Bool × Bool × List Char
  | '\\' :: '!' :: rest => (false, false, '!' :: rest)
  | '\\' :: '#' :: rest => (false, false, '#' :: rest)
  | '!' :: '/' :: rest => (true, true, rest)
  | '!' :: rest => (true, false, rest)
  | '/' :: rest => (false, true, rest)
  | rest => (false, false, rest)

/-- A rule without the slash at its end, and whether there is one. -/
def cutFolderMark (text : List Char) : Bool × List Char :=
  if text.getLast? = some '/' then
    let text := text.dropLast
    (true, if text.getLast? = some '\\' then text.dropLast else text)
  else (false, text)

/-- The pattern of a rule: one without any slash is about names at any depth, and
one that ends in two stars is not about the folder in front of them. -/
def globText (isAnchored : Bool) (text : List Char) : List Char :=
  let text :=
    if !isAnchored && !text.contains '/' && text != ['*', '*'] then
      '*' :: '*' :: '/' :: text
    else text
  if 3 ≤ text.length ∧ text.drop (text.length - 3) = ['/', '*', '*'] then
    text ++ ['/', '*']
  else text

/-- The rule on a line, if there is one. -/
def ofLine? (line : List Char) : Option IgnoreRule := do
  let text := trimLine line
  guard (line.head? ≠ some '#' ∧ ¬ text.isEmpty)
  let (isException, isAnchored, text) := cutMarks text
  let (foldersOnly, text) := cutFolderMark text
  return { glob := ← Glob.parse? (globText isAnchored text), isException, foldersOnly }

/-- The lines of an ignore file in front of the first one that is no text, without
a byte order mark. -/
def linesOfFile (bytes : List UInt8) : List (List Char) :=
  let lines := ((Text.linesOfBytes bytes).takeWhile Option.isSome).filterMap id
  (lines.map Text.dropBreak).modifyHead (List.dropWhile (· == '\ufeff'))

/-- The rules of an ignore file. -/
def ofFile (bytes : List UInt8) : List IgnoreRule :=
  let rules := (linesOfFile bytes).filterMap ofLine?
  if rules.all fun rule => rule.glob.depth ≤ Glob.depthLimit then rules else []

/-- Whether some rules ignore a path or take it back; `none` when no rule is about
it. -/
def verdict? (rules : List IgnoreRule) (path : List UInt8) (isFolder : Bool) :
    Option Bool :=
  let matching := rules.filter fun rule =>
    (isFolder || !rule.foldersOnly) && rule.glob.isMatch path
  matching.getLast?.map fun rule => !rule.isException

end IgnoreRule

end TestScaffold
