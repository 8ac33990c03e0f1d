import TestScaffold.Json.Value
import TestScaffold.Text.Hex
/-!
# Writing JSON

A value is written either on one line without any blanks or over several lines,
with two spaces for each level and one member or item on a line. Empty
containers are `[]` and `{}` in both forms.

In strings only quotes, backslashes and control characters are escaped, the
latter by their letter when they have one.
-/

namespace TestScaffold.Json

/-- How a character is written inside a string. -/
def charText (c : Char) : List Char :=
  match c with
  | '"' => ['\\', '"']
  | '\\' => ['\\', '\\']
  | '\x08' => ['\\', 'b']
  | '\x0c' => ['\\', 'f']
  | '\n' => ['\\', 'n']
  | '\r' => ['\\', 'r']
  | '\t' => ['\\', 't']
  | c =>
    if c.toNat < 0x20 then
      ['\\', 'u', '0', '0', Text.hexDigit (c.toNat / 16), Text.hexDigit (c.toNat % 16)]
    else [c]

/-- The literal of a string. A string without a text is written as half of a
surrogate pair. -/
def literal : Option String → List Char
  | some text => '"' :: text.toList.flatMap charText ++ ['"']
  | none => "\"\\ud800\"".toList

/-- The text of a value that is no container. -/
def scalarChars : Json → List Char
  | null => "null".toList
  | bool true => "true".toList
  | bool false => "false".toList
  | natural n => Nat.toDigits 10 n
  | number lexeme => lexeme.toList
  | string text => literal text
  | array _ | object _ => []

/-- How the parts of a container are set apart. -/
structure Layout where
  /-- What stands behind an opening bracket, in front of a closing bracket and
  behind a comma, at a given level. -/
  gap : Nat → List Char
  /-- What stands between a name and its value. -/
  colon : List Char

/-- Everything on one line, without blanks. -/
def compactLayout : Layout :=
  ⟨fun _ => [], [':']⟩

/-- One part of a container on a line, with two spaces for each level. -/
def prettyLayout : Layout :=
  ⟨fun level => '\n' :: List.replicate (2 * level) ' ', [':', ' ']⟩

mutual
/-- The text of a value at a level. -/
def chars (layout : Layout) (level : Nat) : Json → List Char
  | array [] => ['[', ']']
  | array (item :: items) =>
    '[' :: layout.gap (level + 1) ++ chars layout (level + 1) item
      ++ itemsChars layout (level + 1) items ++ layout.gap level ++ [']']
  | object [] => ['{', '}']
  | object ((name, value) :: members) =>
    '{' :: layout.gap (level + 1) ++ literal name ++ layout.colon
      ++ chars layout (level + 1) value
      ++ membersChars layout (level + 1) members ++ layout.gap level ++ ['}']
  | scalar => scalarChars scalar
/-- The text of the items of an array behind the first one. -/
def itemsChars (layout : Layout) (level : Nat) : List Json → List Char
  | [] => []
  | item :: items =>
    ',' :: layout.gap level ++ chars layout level item ++ itemsChars layout level items
/-- The text of the members of an object behind the first one. -/
def membersChars (layout : Layout) (level : Nat) : List (Option String × Json) → List Char
  | [] => []
  | (name, value) :: members =>
    ',' :: layout.gap level ++ literal name ++ layout.colon ++ chars layout level value
      ++ membersChars layout level members
end

/-- The text of a value on one line. -/
def compact (value : Json) : String :=
  String.ofList (chars compactLayout 0 value)

/-- The text of a value over several lines. -/
def pretty (value : Json) : String :=
  String.ofList (chars prettyLayout 0 value)

end TestScaffold.Json
