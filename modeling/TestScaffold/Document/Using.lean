import TestScaffold.Document.Source
import TestScaffold.Text.Fold
/-!
# Using directives

The using directives at the top of a document name the namespaces it uses. Only
the plain form `using Demo.Core;` counts: an alias, a static or a global using
and a comment all end the block of directives. Blank lines do not.
-/

namespace TestScaffold

namespace Source

/-- Whether a character may stand in the namespace of a directive. -/
def isNamespaceChar (c : Char) : Bool :=
  let folded := Text.foldCase c
  ('a' ≤ folded && folded ≤ 'z') || c.isDigit || c == '_' || c == '.'

/-- The namespace of a line without blanks at its ends that is a using directive:
the word `using` in any case, blanks, the namespace and a semicolon. -/
def directive? (line : List Char) : Option (List Char) :=
  let rest := line.drop 5
  let behind := Text.trimStart rest
  let name := behind.takeWhile isNamespaceChar
  if (line.take 5).map Text.foldCase == "using".toList
      && behind.length < rest.length
      && !name.isEmpty
      && Text.trimStart (behind.drop name.length) == [';'] then
    some name
  else none

/-- The namespaces of the directives at the head of some lines. -/
def leadingUsings : List (List Char) → List (List Char)
  | [] => []
  | line :: rest =>
    let trimmed := Text.trim line
    if trimmed.isEmpty then leadingUsings rest
    else
      match directive? trimmed with
      | some name => name :: leadingUsings rest
      | none => []

/-- The namespaces of the directives at the top of a document, looking no further
than the given number of lines. -/
def usings (s : Source) (limit : Nat) : List String :=
  (leadingUsings (s.lines.take limit)).map String.ofList

end Source

end TestScaffold
