import TestScaffold.Declaration.Error
import TestScaffold.Text.Blank
import TestScaffold.Text.Cut
/-!
# Source documents

A document is a text cut into lines at its line feeds. Carriage returns at the
end of a line belong to its terminator, not to the line.

Positions turn into *offsets*, numbers of characters from the beginning of the
text. A position behind the end of its line means the end of the line; a
position in a line that does not exist means nothing.
-/

namespace TestScaffold

/-- A source document. -/
structure Source where
  /-- The text of the document. -/
  text : List Char
deriving DecidableEq, Repr

namespace Source

/-- The lines without their line feeds, with their carriage returns. -/
def rawLines (s : Source) : List (List Char) :=
  Text.splitWhere (· == '\n') s.text

/-- A line without the carriage returns at its end. -/
def dropReturns (line : List Char) : List Char :=
  line.foldr (fun c rest => if rest.isEmpty && c == '\r' then [] else c :: rest) []

/-- The lines without their terminators. -/
def lines (s : Source) : List (List Char) :=
  s.rawLines.map dropReturns

/-- The number of lines; a text without a line feed is one line. -/
def lineCount (s : Source) : Nat :=
  s.rawLines.length

/-- A line without its terminator. -/
def line? (s : Source) (index : Nat) : Option (List Char) :=
  s.lines[index]?

/-- The offset at which a line begins. -/
def lineStart (s : Source) (index : Nat) : Nat :=
  (s.rawLines.take index).foldr (fun line offset => line.length + 1 + offset) 0

/-- The offset of a position. -/
def offset? (s : Source) (p : Position) : Option Nat :=
  (s.line? p.line.toNat).map fun line =>
    s.lineStart p.line.toNat + min p.character.toNat line.length

/-- The offset of a position in bytes of UTF-8. -/
def byteOffset? (s : Source) (p : Position) : Option Nat :=
  (s.offset? p).map fun offset => Text.byteLength (s.text.take offset)

/-- The text between two positions. -/
def slice (s : Source) (start stop : Position) :
    Except DeclarationError (List Char) :=
  match s.offset? start, s.offset? stop with
  | some first, some last =>
    if last < first then .error (.reversedRange start stop)
    else .ok ((s.text.take last).drop first)
  | _, _ => .error (.outsideDocument start stop)

end Source

end TestScaffold
