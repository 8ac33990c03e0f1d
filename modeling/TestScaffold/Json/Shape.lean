import TestScaffold.Json.Walk
/-!
# Shapes of JSON values

A shape says what a structure looks like in JSON: which fields it has, and what they
hold. `Shape.fault?` finds the first fault of a text that was expected to have a shape,
and `Shape.complaint` tells it in words.

A complaint about a structure as a whole, such as a missing field, is made where the
structure ends. So the walk over a value hands it to the structure around it.
-/

namespace TestScaffold.Json

/-- What a JSON value is expected to look like. -/
inductive Shape where
  /-- Anything. -/
  | any
  /-- A string, by the words for what it is. -/
  | text (expected : String)
  /-- A natural number below 2³². -/
  | word
  /-- A natural number below 2³² or a string. -/
  | wordOrText
  /-- An array with items of a shape. -/
  | list (item : Shape)
  /-- A structure with its name and its fields: their names, whether they have to be
  there, and their shapes. -/
  | record (name : String) (fields : List (String × Bool × Shape))

namespace Shape

open Walk (skip enter hasItem hasMember colon leaveArray leaveObject failBehind
  failInArray failInObject skipValue valueStart wrongType)

/-- The first field that has to be there and is not. -/
def missing? (fields : List (String × Bool × Shape)) (seen : List String) :
    Option Complaint :=
  (fields.find? fun (name, isRequired, _) => isRequired && !seen.contains name).map
    fun (name, _) => .missingField name

/-- Leave an array, or complain about it. -/
def inArray : Option Complaint → Walk (Option Complaint)
  | some complaint => failInArray complaint
  | none => do
    leaveArray
    return none

/-- Leave an object, or complain about it. -/
def inObject : Option Complaint → Walk (Option Complaint)
  | some complaint => failInObject complaint
  | none => do
    leaveObject
    return none

/-- Walk over a natural number below 2³². -/
def wordAt (start : Char) : Walk (Option Complaint) := do
  if start = '-' ∨ start.isDigit then
    match ← Walk.number true with
    | .natural n =>
      if n < UInt32.size then return none
      else Walk.fail (.wrongNumber (Walk.Number.natural n).phrase "u32")
    | .negative n => Walk.fail (.wrongNumber (Walk.Number.negative n).phrase "u32")
    | .decimal words => Walk.fail (.wrongType (Walk.Number.decimal words).phrase "u32")
  else wrongType "u32" start

mutual
/-- Walk over a value of a shape. A complaint that is handed back has no place yet. -/
def walk : Nat → Nat → Shape → Walk (Option Complaint)
  | 0, _, _ => return none
  | steps + 1, budget, shape => do
    let start ← valueStart
    match shape, start with
    | .text _, '"' =>
      let _ ← Walk.string true
      return none
    | .text expected, start => wrongType expected start
    | .word, start => wordAt start
    | .wordOrText, '"' =>
      let _ ← Walk.string true
      return none
    | .wordOrText, start =>
      if start.isDigit then
        match ← Walk.number true with
        | .natural n => return if n < UInt32.size then none else some .neitherType
        | _ => return some .neitherType
      else
        let _ ← walk steps budget .any
        return some .neitherType
    | .list item, '[' =>
      let budget ← enter budget
      inArray (← items steps budget item true)
    | .list _, start => wrongType "a sequence" start
    | .record name fields, '[' =>
      let budget ← enter budget
      inArray (← fieldsInOrder steps budget name fields.length fields true)
    | .record _ fields, '\x7b' =>
      let budget ← enter budget
      inObject (← members steps budget (some fields) [] true)
    | .record name _, start => wrongType ("struct " ++ name) start
    | .any, 'n' => do skip 1; Walk.word "ull".toList; return none
    | .any, 't' => do skip 1; Walk.word "rue".toList; return none
    | .any, 'f' => do skip 1; Walk.word "alse".toList; return none
    | .any, '"' =>
      let _ ← Walk.string true
      return none
    | .any, '[' =>
      let budget ← enter budget
      inArray (← items steps budget .any true)
    | .any, '\x7b' =>
      let budget ← enter budget
      inObject (← members steps budget none [] true)
    | .any, start =>
      if start = '-' ∨ start.isDigit then
        let _ ← Walk.number true
        return none
      else failBehind .noValue
/-- Walk over the items of an array. -/
def items : Nat → Nat → Shape → Bool → Walk (Option Complaint)
  | 0, _, _, _ => return none
  | steps + 1, budget, item, isFirst => do
    if ← hasItem isFirst then
      match ← walk steps budget item with
      | some complaint => return some complaint
      | none => items steps budget item false
    else return none
/-- Walk over the fields of a structure that is given as an array; `all` is the number
of all its fields. -/
def fieldsInOrder : Nat → Nat → String → Nat → List (String × Bool × Shape) → Bool →
    Walk (Option Complaint)
  | 0, _, _, _, _, _ => return none
  | _, _, _, _, [], _ => return none
  | steps + 1, budget, name, all, (_, isRequired, shape) :: fields, isFirst => do
    if ← hasItem isFirst then
      match ← walk steps budget shape with
      | some complaint => return some complaint
      | none => fieldsInOrder steps budget name all fields false
    else if isRequired then return some (.tooShort (all - fields.length - 1) name all)
    else fieldsInOrder steps budget name all fields isFirst
/-- Walk over the members of an object behind some fields: those of a structure, or
any ones. -/
def members : Nat → Nat → Option (List (String × Bool × Shape)) → List String → Bool →
    Walk (Option Complaint)
  | 0, _, _, _, _ => return none
  | steps + 1, budget, fields?, seen, isFirst => do
    if ← hasMember isFirst then
      let name ← Walk.text
      match fields?, (fields?.getD []).find? fun field => field.1 == name with
      | none, _ =>
        colon
        match ← walk steps budget .any with
        | some complaint => return some complaint
        | none => members steps budget fields? seen false
      | some _, none =>
        colon
        skipValue steps
        members steps budget fields? seen false
      | some _, some (name, _, shape) =>
        if seen.contains name then return some (.repeatedField name)
        else
          colon
          match ← walk steps budget shape with
          | some complaint => return some complaint
          | none => members steps budget fields? (name :: seen) false
    else return missing? (fields?.getD []) seen
end

/-- Walk over a whole text of a shape. -/
def walkText (shape : Shape) (budget : Nat) : Walk Unit := do
  match ← walk (2 * (← get).length + 16) budget shape with
  | some complaint => Walk.fail complaint
  | none => if (← Walk.skipBlanks).isSome then failBehind .trailingText

/-- The first fault of a text that is expected to have a shape and to open no more
containers inside one another than a budget allows. -/
def fault? (shape : Shape) (budget : Nat) (text : String) : Option Fault :=
  match (walkText shape budget).run (byteChars text) with
  | .ok _ => none
  | .error fault => some fault

/-- What is wrong with such a text, in words; nothing if there is no fault. -/
def complaint (shape : Shape) (budget : Nat) (text : String) : String :=
  match shape.fault? budget text with
  | some fault => fault.message (byteChars text)
  | none => ""

end Shape

end TestScaffold.Json
