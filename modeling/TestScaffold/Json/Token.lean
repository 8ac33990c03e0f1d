import TestScaffold.Json.Value
import TestScaffold.Text.Hex
/-!
# JSON tokens

`Json.tokens?` cuts a JSON text into punctuation, literals, numbers and names.
It accepts exactly the tokens of RFC 8259: no leading zeros, no raw control
characters in strings, and the four blanks of JSON between tokens.
-/

namespace TestScaffold.Json

/-- A token of a JSON text. -/
inductive Token where
  | openBrace
  | closeBrace
  | openBracket
  | closeBracket
  | comma
  | colon
  /-- A token that is a value: a name, a number or a string. -/
  | scalar (value : Json)
deriving Repr, BEq

/-- The blanks between tokens. -/
def isSpace (c : Char) : Bool :=
  c == ' ' || c == '\t' || c == '\n' || c == '\r'

/-! ## Strings -/

/-- The code unit named by a one-letter escape. -/
def escapeUnit? (c : Char) : Option Nat :=
  match c with
  | '"' => some 0x22
  | '\\' => some 0x5C
  | '/' => some 0x2F
  | 'b' => some 0x08
  | 'f' => some 0x0C
  | 'n' => some 0x0A
  | 'r' => some 0x0D
  | 't' => some 0x09
  | _ => none

/-- The code units of a string literal behind its opening quote, and what
follows its closing quote. Characters stand for themselves, whatever their
number; an escape by number gives one UTF-16 unit. -/
def stringUnits? : List Char → Option (List Nat × List Char)
  | [] => none
  | '"' :: rest => some ([], rest)
  | '\\' :: 'u' :: a :: b :: c :: d :: rest => do
    let unit ← Text.hexNumber? [a, b, c, d]
    let (units, rest) ← stringUnits? rest
    return (unit :: units, rest)
  | '\\' :: c :: rest => do
    let unit ← escapeUnit? c
    let (units, rest) ← stringUnits? rest
    return (unit :: units, rest)
  | c :: rest => do
    guard (' ' ≤ c ∧ c ≠ '\\')
    let (units, rest) ← stringUnits? rest
    return (c.toNat :: units, rest)

/-- Join the two halves of each surrogate pair. -/
def joinSurrogates : List Nat → List Nat
  | high :: low :: rest =>
    if 0xD800 ≤ high ∧ high < 0xDC00 ∧ 0xDC00 ≤ low ∧ low < 0xE000 then
      (0x10000 + (high - 0xD800) * 0x400 + (low - 0xDC00)) :: joinSurrogates rest
    else high :: joinSurrogates (low :: rest)
  | units => units

/-- The text of some code units, unless half of a pair stands alone. -/
def unitsText? (units : List Nat) : Option String :=
  ((joinSurrogates units).mapM Text.scalar?).map String.ofList

/-! ## Numbers -/

/-- The number with some decimal digits. -/
def decimal (digits : List Char) : Nat :=
  digits.foldl (fun n c => 10 * n + (c.toNat - '0'.toNat)) 0

/-- The leading digits of a text, of which there has to be one, and the rest. -/
def someDigits? (text : List Char) : Option (List Char × List Char) :=
  let digits := text.takeWhile Char.isDigit
  if digits.isEmpty then none else some (digits, text.drop digits.length)

/-- The digits in front of the point: a zero alone, or digits that begin with
another one. -/
def wholeDigits? : List Char → Option (List Char × List Char)
  | '0' :: rest => some (['0'], rest)
  | text => someDigits? text

/-- A fraction, if the text begins with a point. -/
def fraction? : List Char → Option (List Char × List Char)
  | '.' :: rest => (someDigits? rest).map fun (digits, rest) => ('.' :: digits, rest)
  | text => some ([], text)

/-- A sign, if the text begins with one of the given ones. -/
def sign (signs : List Char) : List Char → List Char × List Char
  | [] => ([], [])
  | c :: rest => if signs.contains c then ([c], rest) else ([], c :: rest)

/-- An exponent, if the text begins with its letter. -/
def exponent? : List Char → Option (List Char × List Char)
  | [] => some ([], [])
  | c :: rest =>
    if c = 'e' ∨ c = 'E' then
      let (mark, rest) := sign ['+', '-'] rest
      (someDigits? rest).map fun (digits, rest) => (c :: mark ++ digits, rest)
    else some ([], c :: rest)

/-- The number at the beginning of a text, and the rest. -/
def number? (text : List Char) : Option (Json × List Char) := do
  let (minus, rest) := sign ['-'] text
  let (whole, rest) ← wholeDigits? rest
  let (fraction, rest) ← fraction? rest
  let (exponent, rest) ← exponent? rest
  if minus.isEmpty && fraction.isEmpty && exponent.isEmpty then
    return (.natural (decimal whole), rest)
  return (.number (String.ofList (minus ++ whole ++ fraction ++ exponent)), rest)

/-! ## Tokens -/

/-- The names of JSON. -/
def names : List (List Char × Json) :=
  [("null".toList, .null), ("true".toList, .bool true), ("false".toList, .bool false)]

/-- The token at the beginning of a text that begins with no blank, and the
rest. -/
def token? : List Char → Option (Token × List Char)
  | [] => none
  | '{' :: rest => some (.openBrace, rest)
  | '}' :: rest => some (.closeBrace, rest)
  | '[' :: rest => some (.openBracket, rest)
  | ']' :: rest => some (.closeBracket, rest)
  | ',' :: rest => some (.comma, rest)
  | ':' :: rest => some (.colon, rest)
  | '"' :: rest => do
    let (units, rest) ← stringUnits? rest
    return (.scalar (.string (unitsText? units)), rest)
  | text =>
    match names.find? (fun (name, _) => name.isPrefixOf text) with
    | some (name, value) => some (.scalar value, text.drop name.length)
    | none => (number? text).map fun (value, rest) => (.scalar value, rest)

/-- The tokens of a text, with at most as many steps as it has characters. -/
def tokensWithin? : Nat → List Char → Option (List Token)
  | _, [] => some []
  | 0, _ :: _ => none
  | steps + 1, c :: rest =>
    if isSpace c then tokensWithin? steps rest
    else do
      let (token, rest) ← token? (c :: rest)
      let tokens ← tokensWithin? steps rest
      return token :: tokens

/-- The tokens of a JSON text; `none` when something in it is no token. Every
token takes a character, so the length of the text bounds their number. -/
def tokens? (text : List Char) : Option (List Token) :=
  tokensWithin? text.length text

end TestScaffold.Json
