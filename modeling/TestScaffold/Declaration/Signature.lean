import TestScaffold.Text.Blank
import TestScaffold.Scan.TopLevel
/-!
# Display signatures

A symbol comes with a one-line display signature: `Demo.Shapes.Circle<T>` for a
class, `Run<T>(T value)` for a method. This module takes signatures apart.
-/

namespace TestScaffold.Declaration

/-- The generic suffix `<T, U>` of a signature shaped `Name<T, U>(...)`: a name
without brackets, a non-empty text between angle brackets and a parameter list
up to the very end, the last two without a line break. Of several places where
the suffix may end the last one counts. -/
def genericSuffix? (signature : List Char) : Option (List Char) :=
  let isBracket (c : Char) := c == '<' || c == '>' || c == '(' || c == ')'
  let text := Text.trim signature
  let name := text.takeWhile (fun c => !isBracket c)
  match text.dropWhile (fun c => !isBracket c) with
  | '<' :: rest =>
    match Text.cutLastAt? ['>', '('] rest with
    | some (arguments, parameters) =>
      if !name.isEmpty && !arguments.isEmpty && parameters.getLast? == some ')'
          && !rest.contains '\n' then
        some ('<' :: arguments ++ ['>'])
      else none
    | none => none
  | _ => none

/-- The leading name token of a class signature. -/
def className (signature : List Char) : List Char :=
  signature.takeWhile (fun c => !(c == '<' || c == '(' || c == ' ' || c == ':'))

/-- The namespace qualification of a class signature: `Demo.Shapes.Circle<T>`
has `Demo.Shapes`. -/
def qualifiedNamespace? (signature : List Char) : Option (List Char) :=
  (Scan.cutLast? '.' (className (Text.trim signature))).map Prod.fst

/-- A class signature without its namespace qualification and without the
parameter list of a primary constructor. -/
def classDisplayName (signature : List Char) : List Char :=
  let text := Text.trim signature
  let unqualified :=
    match Scan.cutLast? '.' (className text) with
    | some (qualification, _) => text.drop (qualification.length + 1)
    | none => text
  match Scan.cutAtOpen? '(' unqualified with
  | some (head, rest) =>
    match Scan.cutAtClose? 1 rest with
    | some (_, tail) => Text.normalize (head ++ ' ' :: tail)
    | none => Text.normalize head
  | none => unqualified

end TestScaffold.Declaration
