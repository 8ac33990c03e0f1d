/-!
# Faults in JSON texts

A JSON text that cannot be read has a first fault: what is wrong, and the place up to
which the text was read. The place is told by its line and by the bytes in front of it
on that line.

Places are counted in bytes, so the modules on faults take a text as the list of its
bytes, each one as the character with its number.
-/

namespace TestScaffold.Json

/-- What is wrong with a JSON text. -/
inductive Complaint where
  /-- The text ends in an array. -/
  | openArray
  /-- The text ends in an object. -/
  | openObject
  /-- The text ends in a string. -/
  | openString
  /-- The text ends where a value is wanted or inside one. -/
  | openValue
  /-- A name has no colon behind it. -/
  | noColon
  /-- An item has neither a comma nor the end of the array behind it. -/
  | noArrayEnd
  /-- A member has neither a comma nor the end of the object behind it. -/
  | noObjectEnd
  /-- A word begins like `null`, `true` or `false` and is none of them. -/
  | noWord
  /-- Something stands where a value is wanted. -/
  | noValue
  /-- Something stands where the name of a member is wanted. -/
  | noName
  /-- A number is not well formed. -/
  | badNumber
  /-- A number is too large. -/
  | hugeNumber
  /-- An escape does not exist. -/
  | badEscape
  /-- An escape names half of a surrogate pair, and the other half is missing. -/
  | loneSurrogate
  /-- An escape names the first half of a surrogate pair, and no escape follows. -/
  | noSecondEscape
  /-- A string holds a control character. -/
  | controlCharacter
  /-- A comma stands in front of the end of a container. -/
  | trailingComma
  /-- Something stands behind the end of a value. -/
  | trailingText
  /-- Containers are nested too deep. -/
  | tooDeep
  /-- A value is of another type than expected. -/
  | wrongType (found expected : String)
  /-- A number is outside of the expected range. -/
  | wrongNumber (found expected : String)
  /-- A value is neither of two types. -/
  | neitherType
  /-- A field of a structure is missing. -/
  | missingField (name : String)
  /-- A field of a structure is given twice. -/
  | repeatedField (name : String)
  /-- A structure that is given as an array has too few fields. -/
  | tooShort (length : Nat) (name : String) (fields : Nat)
deriving DecidableEq, Repr

/-- What is wrong, in words. -/
def Complaint.message : Complaint → String
  | openArray => "EOF while parsing a list"
  | openObject => "EOF while parsing an object"
  | openString => "EOF while parsing a string"
  | openValue => "EOF while parsing a value"
  | noColon => "expected `:`"
  | noArrayEnd => "expected `,` or `]`"
  | noObjectEnd => "expected `,` or `\x7d`"
  | noWord => "expected ident"
  | noValue => "expected value"
  | noName => "key must be a string"
  | badNumber => "invalid number"
  | hugeNumber => "number out of range"
  | badEscape => "invalid escape"
  | loneSurrogate => "lone leading surrogate in hex escape"
  | noSecondEscape => "unexpected end of hex escape"
  | controlCharacter => "control character (\\u0000-\\u001F) found while parsing a string"
  | trailingComma => "trailing comma"
  | trailingText => "trailing characters"
  | tooDeep => "recursion limit exceeded"
  | wrongType found expected => "invalid type: " ++ found ++ ", expected " ++ expected
  | wrongNumber found expected => "invalid value: " ++ found ++ ", expected " ++ expected
  | neitherType => "data did not match any variant of untagged enum Raw"
  | missingField name => "missing field `" ++ name ++ "`"
  | repeatedField name => "duplicate field `" ++ name ++ "`"
  | tooShort length name fields =>
    "invalid length " ++ toString length ++ ", expected struct " ++ name ++ " with "
      ++ toString fields ++ " elements"

/-- A fault in a text. -/
structure Fault where
  /-- What is wrong. -/
  complaint : Complaint
  /-- What of the text is behind the place of the fault. -/
  rest : List Char
deriving DecidableEq, Repr

/-- What is wrong with a text, and where. -/
def Fault.message (fault : Fault) (text : List Char) : String :=
  let passed := text.take (text.length - fault.rest.length)
  let column := (passed.reverse.takeWhile (· != '\n')).length
  fault.complaint.message ++ " at line " ++ toString (passed.count '\n' + 1)
    ++ " column " ++ toString column

end TestScaffold.Json
