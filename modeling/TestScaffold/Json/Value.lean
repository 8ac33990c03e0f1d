/-!
# JSON values

The values of JSON texts as this library reads and writes them. The members of
an object keep their order and may repeat a name, for what a repeated name
means depends on who reads the object.

The only numbers the library reads are natural numbers written by their digits
alone; of other numbers it keeps the text. A string literal may spell half of a
surrogate pair by an escape. Such a literal is well formed but names no text,
and nothing that looks at its text accepts it.
-/

namespace TestScaffold

/-- A JSON value. -/
inductive Json where
  | null
  | bool (value : Bool)
  /-- A number written by its digits alone. -/
  | natural (value : Nat)
  /-- A number with a sign, a fraction or an exponent, as it is written. -/
  | number (lexeme : String)
  /-- A string; `none` when an escape leaves half of a surrogate pair alone. -/
  | string (text : Option String)
  | array (items : List Json)
  | object (members : List (Option String × Json))
deriving Inhabited, Repr, BEq

namespace Json

/-- A string with a text. -/
def text (value : String) : Json :=
  .string (some value)

/-- A list of strings. -/
def texts (values : List String) : Json :=
  .array (values.map text)

/-- An object with the given members in order. -/
def record (members : List (String × Json)) : Json :=
  .object (members.map fun (name, value) => (some name, value))

end Json

end TestScaffold
