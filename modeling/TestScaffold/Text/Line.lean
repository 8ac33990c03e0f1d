import TestScaffold.Text.Blank
import TestScaffold.Text.Utf8
/-!
# Lines of a file

Files that are read line by line may hold bytes that are no text. Each line is
decoded on its own, so that what stands in front of such bytes can still be used.
-/

namespace TestScaffold.Text

/-- Put the line feed back behind every piece but the last one, which is left out
when it is empty. -/
def restoreBreaks : List (List UInt8) → List (List UInt8)
  | [] => []
  | [last] => if last.isEmpty then [] else [last]
  | piece :: pieces => (piece ++ [10]) :: restoreBreaks pieces

/-- The lines of a file with their line feeds; `none` for a line that is no text. -/
def linesOfBytes (bytes : List UInt8) : List (Option (List Char)) :=
  (restoreBreaks (splitWhere (· == 10) bytes)).map fun line =>
    (decode? line).map String.toList

/-- A line without its line feed and the carriage return in front of that. -/
def dropBreak (line : List Char) : List Char :=
  if line.getLast? = some '\n' then
    let line := line.dropLast
    if line.getLast? = some '\r' then line.dropLast else line
  else line

end TestScaffold.Text
