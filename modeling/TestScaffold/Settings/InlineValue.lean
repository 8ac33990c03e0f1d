import TestScaffold.Json.Value
import TestScaffold.Text.Blank
import TestScaffold.Text.Cut
import TestScaffold.Text.Escape
/-!
# Values in variables

An environment variable holds a value in a short notation: `true` and `false`, a
number, a string in double quotes, a single character in single quotes, a list
`[a, b]` or a table `{name = value}`. Anything else in its place is a text
without quotes, up to a comma or a bracket and without the blanks around it.

A variable that is not of this form as a whole is a text as it stands.
-/

namespace TestScaffold.InlineValue

/-- Whether a character is a blank of the notation. -/
def isGap (c : Char) : Bool :=
  c == ' ' || c == '\t' || c == '\n' || c == '\x0c' || c == '\r'

/-- The text behind its leading blanks. -/
def skipGap (text : List Char) : List Char :=
  text.dropWhile isGap

/-- Whether a character ends a text without quotes. -/
def isBracketOrComma (c : Char) : Bool :=
  c == ',' || c == '{' || c == '}' || c == '[' || c == ']'

/-! ## Numbers -/

/-- Whether a text is not empty and holds only decimal digits. -/
def isDigits (text : List Char) : Bool :=
  !text.isEmpty && text.all Char.isDigit

/-- A text without a sign in front. -/
def dropSign : List Char → List Char
  | '+' :: rest | '-' :: rest => rest
  | text => text

/-- Whether a text is an integer that fits into 64 bits, without a sign when it is
not negative. -/
def isInteger (text : List Char) : Bool :=
  let digits := dropSign text
  let number := digits.foldl (fun n c => 10 * n + (c.toNat - '0'.toNat)) 0
  isDigits digits
    && decide (number ≤ if text.head? = some '-' then UInt64.size / 2 else UInt64.size - 1)

/-- Whether a text is a number with a decimal point: digits on at least one side of
it, and maybe an exponent. -/
def isDecimal (text : List Char) : Bool :=
  let (mantissa, exponent) :=
    match Text.cutWhere? (fun c => c == 'e' || c == 'E') (dropSign text) with
    | some (mantissa, exponent) => (mantissa, some exponent)
    | none => (dropSign text, none)
  match Text.cutWhere? (· == '.') mantissa with
  | some (whole, fraction) =>
    isDigits (whole ++ fraction)
      && (match exponent with
        | some exponent => isDigits (dropSign exponent)
        | none => true)
  | none => false

/-- The value of a text without quotes. -/
def bareValue (text : List Char) : Json :=
  if isDecimal text || isInteger text then .number (String.ofList text)
  else .text (String.ofList text)

/-! ## Values -/

/-- The characters at the beginning of a text that fit into some bytes. -/
def takeBytes : Nat → List Char → List Char
  | _, [] => []
  | size, c :: text =>
    if c.utf8Size ≤ size then c :: takeBytes (size - c.utf8Size) text else []

/-- Resolve the escapes of a string. Of the text in front of the first escape only
as many bytes stay as it has characters. -/
def unescape? (raw : List Char) : Option (List Char) := do
  let text ← Text.unescape? false raw
  match Text.cutWhere? (· == '\\') raw with
  | some (plain, _) => return takeBytes plain.length plain ++ text.drop plain.length
  | none => return text

/-- A string behind its opening quote, and the rest. -/
def quoted? (text : List Char) : Option (String × List Char) := do
  let (raw, rest) ← Text.cutAtQuote? '"' text
  return (String.ofList (← unescape? raw), rest)

/-- Whether a character may stand in a name without quotes. -/
def isNameChar (c : Char) : Bool :=
  c.isAlphanum || c == '_' || c == '-'

/-- The name of a member, and the rest. -/
def name? (text : List Char) : Option (String × List Char) :=
  match text with
  | '"' :: rest => quoted? rest
  | text =>
    let name := text.takeWhile isNameChar
    if name.isEmpty then none else some (String.ofList name, text.drop name.length)

/-- The members with one more of them, which takes the place of an earlier one of
the same name. -/
def addMember (members : List (Option String × Json)) (name : String) (value : Json) :
    List (Option String × Json) :=
  members.filter (fun member => member.1 != some name) ++ [(some name, value)]

mutual
/-- The value at the beginning of a text, and the text behind it and the blanks that
follow. -/
def value? : Nat → List Char → Option (Json × List Char)
  | 0, _ => none
  | steps + 1, text => do
    let (value, rest) ← atValue? steps (skipGap text)
    return (value, skipGap rest)
/-- The value at the beginning of a text without leading blanks, and the rest. -/
def atValue? : Nat → List Char → Option (Json × List Char)
  | 0, _ => none
  | steps + 1, text =>
    match Text.stripStart? "true".toList text, Text.stripStart? "false".toList text with
    | some rest, _ => some (.bool true, rest)
    | none, some rest => some (.bool false, rest)
    | none, none =>
      match text with
      | '{' :: rest => members? steps [] rest
      | '[' :: rest => items? steps [] rest
      | '"' :: rest => (quoted? rest).map fun (text, rest) => (.text text, rest)
      | '\'' :: c :: '\'' :: rest => some (.text (String.singleton c), rest)
      | '\'' :: _ => none
      | text =>
        let bare := text.takeWhile fun c => !isBracketOrComma c
        some (bareValue (Text.trim bare), text.drop bare.length)
/-- The rest of a list behind some items in reverse. -/
def items? : Nat → List Json → List Char → Option (Json × List Char)
  | 0, _, _ => none
  | steps + 1, done, text =>
    match text with
    | ']' :: rest => some (.array done.reverse, rest)
    | text => do
      let (value, rest) ← value? steps text
      match rest with
      | ',' :: rest => items? steps (value :: done) rest
      | ']' :: rest => return (.array (value :: done).reverse, rest)
      | _ => none
/-- The rest of a table behind some members. -/
def members? : Nat → List (Option String × Json) → List Char → Option (Json × List Char)
  | 0, _, _ => none
  | steps + 1, done, text =>
    match text with
    | '}' :: rest => some (.object done, rest)
    | text => do
      let (name, rest) ← name? (skipGap text)
      let rest ← Text.stripStart? ['='] (skipGap rest)
      let (value, rest) ← value? steps rest
      let done := addMember done name value
      match rest with
      | ',' :: rest => members? steps done rest
      | '}' :: rest => return (.object done, rest)
      | _ => none
end

/-- The value of a variable. -/
def read (text : String) : Json :=
  match value? (2 * text.length + 3) text.toList with
  | some (value, []) => value
  | _ => .text text

end TestScaffold.InlineValue
