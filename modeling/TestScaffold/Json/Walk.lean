import TestScaffold.Json.Fault
import TestScaffold.Json.Token
import TestScaffold.Text.Utf8
/-!
# Walking over JSON texts

A `Walk` goes over a JSON text from left to right and stops at the first fault. This
module has the walks over what stands inside of containers: strings, numbers, words
and the marks around items and members.

A value that is read and one that is skipped have different faults. A walk that makes
the difference is told whether the value *is read*.
-/

namespace TestScaffold.Json

/-- The bytes of a text, each one as the character with its number. -/
def byteChars (text : String) : List Char :=
  (Text.encode text).map fun b => Char.ofNat b.toNat

/-- The text of some bytes. -/
def ofByteChars (bytes : List Char) : String :=
  (Text.decode? (bytes.map fun c => UInt8.ofNat c.toNat)).getD ""

/-- A way over the beginning of a text, up to a fault in it. -/
abbrev Walk := StateT (List Char) (Except Fault)

namespace Walk

/-- Complain about the place that is reached. -/
def fail {α : Type} (complaint : Complaint) : Walk α :=
  fun rest => .error ⟨complaint, rest⟩

/-- Complain about the next byte, of which the place is behind it. -/
def failBehind {α : Type} (complaint : Complaint) : Walk α :=
  fun rest => .error ⟨complaint, rest.drop 1⟩

/-- Go over some bytes. -/
def skip (count : Nat) : Walk Unit :=
  modify (List.drop count)

/-- Go over blanks; the next byte, if there is one. -/
def skipBlanks : Walk (Option Char) := do
  modify (List.dropWhile isSpace)
  return (← get).head?

/-- The first byte of a value. -/
def valueStart : Walk Char := do
  match ← skipBlanks with
  | some c => return c
  | none => fail .openValue

/-! ## Words -/

/-- Go over the rest of a word. -/
def word : List Char → Walk Unit
  | [] => pure ()
  | c :: expected => do
    match ← get with
    | [] => fail .openValue
    | d :: rest =>
      set rest
      if c = d then word expected else fail .noWord

/-! ## Strings -/

/-- The number in the four digits of an escape. -/
def escapeDigits : Walk Nat := do
  match ← get with
  | a :: b :: c :: d :: rest =>
    set rest
    match Text.hexNumber? [a, b, c, d] with
    | some n => return n
    | none => fail .badEscape
  | _ =>
    set ([] : List Char)
    fail .openString

/-- Go over a letter of the escape for the second half of a surrogate pair. -/
def pairLetter (c : Char) : Walk Unit := do
  match ← get with
  | [] => fail .openString
  | d :: _ => if c = d then skip 1 else failBehind .noSecondEscape

/-- The character of an escape by number. The halves of a surrogate pair have to
stand behind each other. -/
def escapeNumber : Walk Char := do
  let high ← escapeDigits
  if 0xDC00 ≤ high ∧ high ≤ 0xDFFF then fail .loneSurrogate
  else if high < 0xD800 ∨ 0xDBFF < high then return Char.ofNat high
  else
    pairLetter '\\'
    pairLetter 'u'
    let low ← escapeDigits
    if low < 0xDC00 ∨ 0xDFFF < low then fail .loneSurrogate
    else return Char.ofNat (0x10000 + (high - 0xD800) * 0x400 + (low - 0xDC00))

/-- The bytes that an escape behind its backslash stands for; none for the number of
one that is skipped. -/
def escape (isRead : Bool) : Walk (List Char) := do
  match ← get with
  | [] => fail .openString
  | 'u' :: _ =>
    skip 1
    if isRead then return byteChars (String.singleton (← escapeNumber))
    else do
      let _ ← escapeDigits
      return []
  | c :: _ =>
    skip 1
    match escapeUnit? c with
    | some unit => return [Char.ofNat unit]
    | none => fail .badEscape

/-- Whether a byte of a string stands for itself. -/
def isPlain (c : Char) : Bool :=
  ' ' ≤ c && c != '"' && c != '\\'

/-- The bytes of the rest of a string, with at most as many steps as it has escapes
and an end. -/
def stringWithin (isRead : Bool) : Nat → Walk (List Char)
  | 0 => fail .openString
  | steps + 1 => do
    let plain := (← get).takeWhile isPlain
    skip plain.length
    match ← get with
    | [] => fail .openString
    | '"' :: _ =>
      skip 1
      return plain
    | '\\' :: _ =>
      skip 1
      let escaped ← escape isRead
      return plain ++ escaped ++ (← stringWithin isRead steps)
    | _ => if isRead then failBehind .controlCharacter else fail .controlCharacter

/-- The bytes of a string, from its opening quote on. -/
def string (isRead : Bool) : Walk (List Char) := do
  skip 1
  stringWithin isRead ((← get).length + 1)

/-- The text of a string that is read. -/
def text : Walk String := do
  return ofByteChars (← string true)

/-! ## Numbers -/

/-- A number that was read. -/
inductive Number where
  /-- A natural number of 64 bits. -/
  | natural (value : Nat)
  /-- A negative integer of 64 bits without its sign. -/
  | negative (value : Nat)
  /-- Any other number, by the words for it. -/
  | decimal (words : String)
deriving DecidableEq, Repr

/-- The digits that come next. -/
def digits : Walk (List Char) := do
  let digits := (← get).takeWhile Char.isDigit
  skip digits.length
  return digits

/-- The digits that come next, of which there has to be one. -/
def someDigits (isRead : Bool) : Walk (List Char) := do
  let digits ← digits
  if digits.isEmpty then
    if (← get).isEmpty && isRead then fail .openValue else failBehind .badNumber
  else return digits

/-- The digits in front of the point: a zero alone, or digits that begin with another
one. -/
def wholeDigits (isRead : Bool) : Walk (List Char) := do
  match ← get with
  | '0' :: rest =>
    skip 1
    if (rest.head?.map Char.isDigit).getD false then failBehind .badNumber
    else return ['0']
  | _ => someDigits isRead

/-- The digits of a fraction, if there is one. -/
def fraction (isRead : Bool) : Walk (List Char) := do
  if (← get).head? = some '.' then
    skip 1
    someDigits isRead
  else return []

/-- An exponent, if there is one. -/
def exponent? (isRead : Bool) : Walk (Option Int) := do
  if (← get).head? = some 'e' ∨ (← get).head? = some 'E' then
    skip 1
    let (mark, _) := sign ['+', '-'] (← get)
    skip mark.length
    let n := Json.decimal (← someDigits isRead)
    return some (if mark = ['-'] then -Int.ofNat n else Int.ofNat n)
  else return none

/-- The number of digits by which a decimal number is shown. -/
def precision : Nat :=
  17

/-- The digits of a natural number. -/
def digitsOf (n : Nat) : List Char :=
  (toString n).toList

/-- A number `digits * 10 ^ exponent` with at most as many digits as are shown. -/
def rounded (number : Nat) (exponent : Int) : Nat × Int :=
  let extra := (digitsOf number).length - precision
  let unit := Nat.pow 10 extra
  ((number + unit / 2) / unit, exponent + extra)

/-- A number `digits * 10 ^ exponent` without zeros at the end of the digits. -/
def stripZeros (digits : List Char) (exponent : Int) : List Char × Int :=
  let stripped := (digits.reverse.dropWhile (· == '0')).reverse
  (stripped, exponent + (digits.length - stripped.length : Nat))

/-- The words for a number `digits * 10 ^ exponent` that is not zero: with a point in
the middle as long as that is short, else with an exponent. -/
def decimalWords (digits : List Char) (exponent : Int) : String :=
  let point := digits.length + exponent
  if 0 ≤ exponent ∧ point ≤ 16 then
    String.ofList (digits ++ List.replicate exponent.toNat '0') ++ ".0"
  else if 0 < point ∧ point ≤ 16 then
    String.ofList (digits.take point.toNat ++ '.' :: digits.drop point.toNat)
  else if -5 < point ∧ point ≤ 0 then
    "0." ++ String.ofList (List.replicate (-point).toNat '0' ++ digits)
  else
    let shown := if digits.length ≤ 1 then digits else digits.take 1 ++ '.' :: digits.drop 1
    String.ofList shown ++ "e" ++ toString (point - 1)

/-- The decimal number `number * 10 ^ exponent`, unless it is too large. -/
def decimal (minus : String) (number : Nat) (exponent : Int) : Walk Number := do
  let (number, exponent) := rounded number exponent
  let (digits, exponent) := stripZeros (digitsOf number) exponent
  let point := digits.length + exponent
  if number = 0 ∨ point < -323 then return .decimal (minus ++ "0.0")
  else if 309 < point then fail .hugeNumber
  else return .decimal (minus ++ decimalWords digits exponent)

/-- A number. -/
def number (isRead : Bool) : Walk Number := do
  let (minus, _) := sign ['-'] (← get)
  skip minus.length
  let whole ← wholeDigits isRead
  let fraction ← fraction isRead
  let exponent? ← exponent? isRead
  let value := Json.decimal (whole ++ fraction)
  if !isRead then return .natural value
  else if fraction.isEmpty && exponent?.isNone then
    if minus.isEmpty && value < UInt64.size then return .natural value
    else if !minus.isEmpty && 0 < value && value ≤ UInt64.size / 2 then
      return .negative value
    else decimal (String.ofList minus) value 0
  else decimal (String.ofList minus) value (exponent?.getD 0 - fraction.length)

/-- A number in a complaint. -/
def Number.phrase : Number → String
  | .natural n => "integer `" ++ toString n ++ "`"
  | .negative n => "integer `-" ++ toString n ++ "`"
  | .decimal words => "floating point `" ++ words ++ "`"

/-! ## Values of a wrong type -/

/-- A character in a quoted text. -/
def quotedChar (c : Char) : List Char :=
  match c with
  | '"' => ['\\', '"']
  | '\\' => ['\\', '\\']
  | '\n' => ['\\', 'n']
  | '\r' => ['\\', 'r']
  | '\t' => ['\\', 't']
  | '\x00' => ['\\', '0']
  | c =>
    if c < ' ' ∨ c = '\x7f' then
      ['\\', 'u', '\x7b'] ++ Nat.toDigits 16 c.toNat ++ ['\x7d']
    else [c]

/-- A text in quotes. -/
def quoted (text : String) : String :=
  "\"" ++ String.ofList (text.toList.flatMap quotedChar) ++ "\""

/-- Complain about a value that begins with a byte and is not of the expected type. -/
def wrongType {α : Type} (expected : String) (start : Char) : Walk α := do
  let found : String ←
    match start with
    | 'n' => do skip 1; word "ull".toList; pure "null"
    | 't' => do skip 1; word "rue".toList; pure "boolean `true`"
    | 'f' => do skip 1; word "alse".toList; pure "boolean `false`"
    | '"' => do pure ("string " ++ quoted (← text))
    | '[' => pure "sequence"
    | '\x7b' => pure "map"
    | c =>
      if c = '-' ∨ c.isDigit then do pure (← number true).phrase
      else failBehind .noValue
  fail (.wrongType found expected)

/-! ## Containers -/

/-- Enter a container, with what is then left of the budget of containers. -/
def enter (budget : Nat) : Walk Nat := do
  if budget = 0 then failBehind .tooDeep
  else
    skip 1
    return budget - 1

/-- Whether an array goes on with an item, to which the walk goes. -/
def hasItem (isFirst : Bool) : Walk Bool := do
  match ← skipBlanks with
  | none => fail .openArray
  | some ']' => return false
  | some ',' =>
    if isFirst then return true
    else
      skip 1
      match ← skipBlanks with
      | some ']' => failBehind .trailingComma
      | some _ => return true
      | none => fail .openValue
  | some _ => if isFirst then return true else failBehind .noArrayEnd

/-- Whether an object goes on with a member, to whose name the walk goes. -/
def hasMember (isFirst : Bool) : Walk Bool := do
  match ← skipBlanks with
  | none => fail .openObject
  | some '\x7d' => return false
  | some c =>
    if isFirst then
      if c = '"' then return true else failBehind .noName
    else if c = ',' then
      skip 1
      match ← skipBlanks with
      | some '"' => return true
      | some '\x7d' => failBehind .trailingComma
      | some _ => failBehind .noName
      | none => fail .openValue
    else failBehind .noObjectEnd

/-- Go over the colon behind the name of a member. -/
def colon : Walk Unit := do
  match ← skipBlanks with
  | some ':' => skip 1
  | some _ => failBehind .noColon
  | none => fail .openObject

/-- Leave an array behind its last item. -/
def leaveArray : Walk Unit := do
  match ← skipBlanks with
  | some ']' => skip 1
  | some ',' =>
    skip 1
    match ← skipBlanks with
    | some ']' => failBehind .trailingComma
    | _ => failBehind .trailingText
  | some _ => failBehind .trailingText
  | none => fail .openArray

/-- Leave an object behind its last member. -/
def leaveObject : Walk Unit := do
  match ← skipBlanks with
  | some '\x7d' => skip 1
  | some ',' => failBehind .trailingComma
  | some _ => failBehind .trailingText
  | none => fail .openObject

/-- Complain about an array as a whole. The place is behind its end, or behind a comma,
if one of them comes next. -/
def failInArray {α : Type} (complaint : Complaint) : Walk α := do
  match ← skipBlanks with
  | some ']' => skip 1
  | some ',' =>
    skip 1
    let _ ← skipBlanks
  | _ => pure ()
  fail complaint

/-- Complain about an object as a whole. The place is behind its end if that comes
next. -/
def failInObject {α : Type} (complaint : Complaint) : Walk α := do
  if (← skipBlanks) = some '\x7d' then skip 1
  fail complaint

/-! ## Skipped values -/

mutual
/-- Go over a value that is skipped. -/
def skipValue : Nat → Walk Unit
  | 0 => pure ()
  | steps + 1 => do
    match ← valueStart with
    | 'n' => do skip 1; word "ull".toList
    | 't' => do skip 1; word "rue".toList
    | 'f' => do skip 1; word "alse".toList
    | '"' => do let _ ← string false
    | '[' => do skip 1; skipItems steps true
    | '\x7b' => do skip 1; skipMembers steps true
    | c =>
      if c = '-' ∨ c.isDigit then do
        let _ ← number false
      else failBehind .noValue
/-- Go over the rest of a skipped array. -/
def skipItems : Nat → Bool → Walk Unit
  | 0, _ => pure ()
  | steps + 1, isFirst => do
    match ← skipBlanks, isFirst with
    | none, _ => fail .openArray
    | some ']', _ => skip 1
    | some _, true => do skipValue steps; skipItems steps false
    | some ',', false => do skip 1; skipValue steps; skipItems steps false
    | some _, false => failBehind .noArrayEnd
/-- Go over the rest of a skipped object. -/
def skipMembers : Nat → Bool → Walk Unit
  | 0, _ => pure ()
  | steps + 1, isFirst => do
    match ← skipBlanks, isFirst with
    | none, _ => fail .openObject
    | some '\x7d', _ => skip 1
    | some _, true => do skipMember steps; skipMembers steps false
    | some ',', false => do skip 1; skipMember steps; skipMembers steps false
    | some _, false => failBehind .noObjectEnd
/-- Go over a skipped member. -/
def skipMember : Nat → Walk Unit
  | 0 => pure ()
  | steps + 1 => do
    match ← skipBlanks with
    | none => fail .openObject
    | some '"' => do
      let _ ← string false
      colon
      skipValue steps
    | some _ => failBehind .noName
end

end Walk

end TestScaffold.Json
