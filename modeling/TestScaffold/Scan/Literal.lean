/-!
# Literals in declaration text

Default values and attribute arguments hold string and character literals, and
a bracket or a comma inside a literal means nothing. `Literal` says where a
reader of the text stands with respect to them:

* a quote opens a literal that runs to the next same quote, and a backslash in
  it takes the character after it along;
* a double quote right after `@`, or after `@` and dollar signs, opens a
  *verbatim* literal, where the backslash is plain;
* a double quote right behind a verbatim literal carries it on, so that a
  doubled quote in a verbatim literal stands for itself.

A literal that is never closed runs to the end of the text.
-/

namespace TestScaffold.Scan

/-- Where a reader stands with respect to the literals of a text. -/
inductive Literal where
  /-- Outside every literal. -/
  | code
  /-- Outside every literal, behind `@` or behind `@` and dollar signs. -/
  | sigil
  /-- Right behind the quote that closed a verbatim literal. -/
  | closedVerbatim
  /-- Inside the literal opened by this quote. -/
  | quoted (quote : Char)
  /-- Inside the literal opened by this quote, right behind a backslash. -/
  | escaped (quote : Char)
  /-- Inside a verbatim literal. -/
  | verbatim
deriving DecidableEq, Repr

namespace Literal

/-- Whether the next character stands outside every literal. -/
def isOutside : Literal → Bool
  | code | sigil | closedVerbatim => true
  | quoted _ | escaped _ | verbatim => false

/-- The place behind a character met outside every literal. -/
def stepOutside (place : Literal) (c : Char) : Literal :=
  if c = '"' then (if place = code then quoted '"' else verbatim)
  else if c = '\'' then quoted '\''
  else if c = '@' then sigil
  else if c = '$' ∧ place = sigil then sigil
  else code

/-- The place behind the next character. -/
def step (place : Literal) (c : Char) : Literal :=
  match place with
  | verbatim => if c = '"' then closedVerbatim else verbatim
  | escaped quote => quoted quote
  | quoted quote =>
    if c = '\\' then escaped quote else if c = quote then code else quoted quote
  | code | sigil | closedVerbatim => stepOutside place c

end Literal

end TestScaffold.Scan
