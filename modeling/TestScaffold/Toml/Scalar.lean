import TestScaffold.Json.Value
import TestScaffold.Text.Cut
import TestScaffold.Text.Hex
/-!
# Bare scalars of TOML

Truth values, numbers, dates and times are written in TOML without quotes. A
scalar is read from its *lexeme*, the longest run of characters that may stand in
one. Numbers have to fit: integers into 64 bits with a sign, floats into the
range of finite doubles.

Nothing in the settings is a number or a date, so all that is kept of them is
that they are neither texts nor truth values; a date counts as a table.
-/

namespace TestScaffold.Toml

/-- Whether a character may stand in a bare scalar. -/
def isScalarChar (c : Char) : Bool :=
  c.isAlphanum || c == '+' || c == '-' || c == '_' || c == '.' || c == ':'

/-! ## Numbers -/

/-- Drop the underscores of a run of digits; `none` unless each one stands between
two digits and there is a digit at all. -/
def digits? (isDigit : Char → Bool) : List Char → Option (List Char)
  | [] => none
  | [c] => if isDigit c then some [c] else none
  | c :: '_' :: rest =>
    if isDigit c then (digits? isDigit rest).map (c :: ·) else none
  | c :: rest => if isDigit c then (digits? isDigit rest).map (c :: ·) else none

/-- The number written by decimal digits. -/
def decimal (digits : List Char) : Nat :=
  digits.foldl (fun n c => 10 * n + (c.toNat - '0'.toNat)) 0

/-- Cut a sign off: whether it is a minus, and the rest. -/
def cutSign : List Char → Bool × List Char
  | '-' :: rest => (true, rest)
  | '+' :: rest => (false, rest)
  | text => (false, text)

/-- The digits of a decimal integer, which has no leading zero. -/
def wholeDigits? (text : List Char) : Option (List Char) := do
  let digits ← digits? Char.isDigit text
  guard (digits.length = 1 ∨ digits.head? ≠ some '0')
  return digits

/-- An integer in a base other than ten. -/
def basedInteger? (base : Nat) (text : List Char) : Option Nat := do
  let isDigit (c : Char) := ((Text.hexValue? c).map fun v => decide (v < base)).getD false
  let digits ← digits? isDigit text
  return digits.foldl (fun n c => base * n + (Text.hexValue? c).getD 0) 0

/-- Whether a text is an integer. -/
def isInteger (text : List Char) : Bool :=
  let fits (n : Option Nat) (bound : Nat) : Bool := (n.map (decide <| · ≤ bound)).getD false
  match text with
  | '0' :: 'x' :: rest => fits (basedInteger? 16 rest) (UInt64.size / 2 - 1)
  | '0' :: 'o' :: rest => fits (basedInteger? 8 rest) (UInt64.size / 2 - 1)
  | '0' :: 'b' :: rest => fits (basedInteger? 2 rest) (UInt64.size / 2 - 1)
  | text =>
    let (negative, rest) := cutSign text
    fits ((wholeDigits? rest).map decimal)
      (if negative then UInt64.size / 2 else UInt64.size / 2 - 1)

/-- Whether the positive number `mantissa · 10 ^ exponent` is rounded to infinity
as a double. -/
def roundsToInfinity (mantissa : Nat) (exponent : Int) : Bool :=
  let magnitude : Int := (Nat.toDigits 10 mantissa).length + exponent
  if mantissa = 0 ∨ magnitude < 309 then false
  else if 309 < magnitude then true
  else
    let limit := Nat.pow 2 1024 - Nat.pow 2 970
    decide (limit * Nat.pow 10 (-exponent).toNat ≤ mantissa * Nat.pow 10 exponent.toNat)

/-- The exponent of a float behind its letter. -/
def exponent? (text : List Char) : Option Int := do
  let (negative, rest) := cutSign text
  let n := decimal (← digits? Char.isDigit rest)
  return if negative then -n else n

/-- Whether a text is a float: a whole part with a fraction, an exponent or
both, or infinity or not a number. -/
def isFloat (text : List Char) : Bool :=
  let (negative, rest) := cutSign text
  if rest == "inf".toList || rest == "nan".toList then true
  else
    let (number, exponentText) :=
      match Text.cutWhere? (fun c => c == 'e' || c == 'E') rest with
      | some (number, exponent) => (number, some exponent)
      | none => (rest, none)
    let (whole, fraction) :=
      match Text.cutWhere? (· == '.') number with
      | some (whole, fraction) => (whole, some fraction)
      | none => (number, none)
    let mantissa : Option (Nat × Int) := do
      let whole ← wholeDigits? whole
      let fraction ← match fraction with
        | some fraction => digits? Char.isDigit fraction
        | none => some []
      let exponent ← match exponentText with
        | some exponent => exponent? exponent
        | none => some 0
      return (decimal (whole ++ fraction), exponent - fraction.length)
    match mantissa with
    | some (m, e) =>
      (fraction.isSome || exponentText.isSome) && (negative || !roundsToInfinity m e)
    | none => false

/-! ## Dates and times -/

/-- The number written by exactly `n` decimal digits. -/
def fixed? (n : Nat) (text : List Char) : Option Nat :=
  if text.length = n ∧ text.all Char.isDigit then some (decimal text) else none

/-- The number of days of a month. -/
def daysInMonth (year month : Nat) : Nat :=
  if month = 2 then
    if year % 4 = 0 ∧ (year % 100 ≠ 0 ∨ year % 400 = 0) then 29 else 28
  else if month = 4 ∨ month = 6 ∨ month = 9 ∨ month = 11 then 30
  else 31

/-- Whether a text is a date such as `1979-05-27`. -/
def isDate (text : List Char) : Bool :=
  match Text.splitAt ['-'] text with
  | [year, month, day] =>
    match fixed? 4 year, fixed? 2 month, fixed? 2 day with
    | some y, some m, some d =>
      decide (1 ≤ m ∧ m ≤ 12 ∧ 1 ≤ d ∧ d ≤ daysInMonth y m)
    | _, _, _ => false
  | _ => false

/-- Whether a text is an hour and a minute. -/
def isHourMinute (hour minute : List Char) : Bool :=
  match fixed? 2 hour, fixed? 2 minute with
  | some h, some m => decide (h ≤ 23 ∧ m ≤ 59)
  | _, _ => false

/-- Whether a text is a second with an optional fraction. -/
def isSecond (text : List Char) : Bool :=
  let (whole, fraction) :=
    match Text.cutWhere? (· == '.') text with
    | some (whole, fraction) => (whole, some fraction)
    | none => (text, none)
  (match fixed? 2 whole with
    | some s => decide (s ≤ 60)
    | none => false)
    && (match fraction with
      | some fraction => !fraction.isEmpty && fraction.all Char.isDigit
      | none => true)

/-- Whether a text is a time of day such as `07:32:00.5`. -/
def isTime (text : List Char) : Bool :=
  match Text.splitAt [':'] text with
  | [hour, minute, second] => isHourMinute hour minute && isSecond second
  | _ => false

/-- Whether a text is a time of day with an optional offset, `Z` or `+01:30`. -/
def isTimeWithOffset (text : List Char) : Bool :=
  match Text.cutWhere? (fun c => c == 'Z' || c == 'z' || c == '+' || c == '-') text with
  | some (time, offset) =>
    let mark := text[time.length]?
    isTime time
      && (if mark == some 'Z' || mark == some 'z' then offset.isEmpty
        else
          match Text.splitAt [':'] offset with
          | [hour, minute] => isHourMinute hour minute
          | _ => false)
  | none => isTime text

/-- Whether a text is a date, a time of day or both with a letter `T` between
them. -/
def isDateTime (text : List Char) : Bool :=
  isDate text || isTime text
    || match Text.cutWhere? (fun c => c == 'T' || c == 't') text with
      | some (date, time) => isDate date && isTimeWithOffset time
      | none => false

/-- The value of a date. -/
def dateValue (text : List Char) : Json :=
  .record [("date-time", .text (String.ofList text))]

/-! ## Scalars -/

/-- The value of a lexeme. -/
def scalar? (lexeme : List Char) : Option Json :=
  if lexeme = "true".toList then some (.bool true)
  else if lexeme = "false".toList then some (.bool false)
  else if isDateTime lexeme then some (dateValue lexeme)
  else if isInteger lexeme || isFloat lexeme then
    some (.number (String.ofList lexeme))
  else none

/-- The scalar at the beginning of a text, and the rest. A date may be set apart
from its time by a space. -/
def leadingScalar? (text : List Char) : Option (Json × List Char) :=
  let lexeme := text.takeWhile isScalarChar
  let rest := text.drop lexeme.length
  let time :=
    match rest with
    | ' ' :: rest => rest.takeWhile isScalarChar
    | _ => []
  if isDate lexeme && isTimeWithOffset time then
    some (dateValue (lexeme ++ ' ' :: time), rest.drop (time.length + 1))
  else (scalar? lexeme).map (·, rest)

end TestScaffold.Toml
