import TestScaffold.Json.Token
/-!
# Reading JSON

`Json.parse?` reads a JSON text by the strict rules of RFC 8259: one value and
nothing behind it. The reader goes once over the tokens. It keeps the
containers that are still open on a stack, the innermost one first, so that no
nesting is too deep for it.
-/

namespace TestScaffold.Json

/-- A container that is still open, with what has been read of it in reverse. -/
inductive Frame where
  /-- An array behind these items. -/
  | array (items : List Json)
  /-- An object behind these members; the value of `name` comes next. -/
  | object (members : List (Option String × Json)) (name : Option String)
deriving Repr, BEq

/-- What a reader waits for. -/
inductive Place where
  /-- A value. -/
  | value
  /-- The first item of an array, or its end. -/
  | firstItem
  /-- The first name of an object, or its end. -/
  | firstName
  /-- A name, behind these members of an object in reverse. -/
  | name (members : List (Option String × Json))
  /-- The colon behind a name. -/
  | colon (members : List (Option String × Json)) (name : Option String)
  /-- A comma or the end of the container behind a whole value. -/
  | behind (value : Json)
deriving Repr, BEq

/-- A reader between two tokens. -/
structure Reader where
  /-- The open containers, the innermost one first. -/
  stack : List Frame
  /-- What the reader waits for. -/
  place : Place
deriving Repr, BEq

namespace Reader

/-- In front of a text. -/
def start : Reader :=
  ⟨[], .value⟩

/-- Take the first token of a value. -/
def begin? (stack : List Frame) : Token → Option Reader
  | .scalar value => some ⟨stack, .behind value⟩
  | .openBracket => some ⟨stack, .firstItem⟩
  | .openBrace => some ⟨stack, .firstName⟩
  | _ => none

/-- Take the token behind a whole value. -/
def proceed? (value : Json) : List Frame → Token → Option Reader
  | .array items :: stack, .comma => some ⟨.array (value :: items) :: stack, .value⟩
  | .array items :: stack, .closeBracket =>
    some ⟨stack, .behind (.array (value :: items).reverse)⟩
  | .object members name :: stack, .comma =>
    some ⟨stack, .name ((name, value) :: members)⟩
  | .object members name :: stack, .closeBrace =>
    some ⟨stack, .behind (.object ((name, value) :: members).reverse)⟩
  | _, _ => none

/-- Take the next token; `none` when it cannot stand here. -/
def step? (r : Reader) (token : Token) : Option Reader :=
  match r.place, token with
  | .value, token => begin? r.stack token
  | .firstItem, .closeBracket => some ⟨r.stack, .behind (.array [])⟩
  | .firstItem, token => begin? (.array [] :: r.stack) token
  | .firstName, .closeBrace => some ⟨r.stack, .behind (.object [])⟩
  | .firstName, .scalar (.string name) => some ⟨r.stack, .colon [] name⟩
  | .name members, .scalar (.string name) => some ⟨r.stack, .colon members name⟩
  | .colon members name, .colon => some ⟨.object members name :: r.stack, .value⟩
  | .behind value, token => proceed? value r.stack token
  | _, _ => none

/-- The value of a reader behind a whole text. -/
def result? : Reader → Option Json
  | ⟨[], .behind value⟩ => some value
  | _ => none

end Reader

/-- The value of a JSON text; `none` when the text is no JSON. -/
def parse? (text : String) : Option Json := do
  let tokens ← tokens? text.toList
  let reader ← tokens.foldlM Reader.step? Reader.start
  reader.result?

end TestScaffold.Json
