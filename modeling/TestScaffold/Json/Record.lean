import TestScaffold.Json.Reader
/-!
# Records in JSON

The structures of this library are written as JSON objects with a member for
each field. On reading, a structure may also be given as the array of its
fields in order, of which the last ones may be missing. Members with other names
are ignored; a field that is given twice makes the structure unreadable.

Reading takes a *budget*: the number of containers that may still be opened
inside one another. Values that are ignored cost nothing.
-/

namespace TestScaffold.Json

/-- The fields of a structure that are present, by name. -/
abbrev Fields := List (String × Json)

/-- The present fields of a structure with the given field names. -/
def fields? (names : List String) : Json → Option Fields
  | array items => if items.length ≤ names.length then some (names.zip items) else none
  | object members => do
    let members ← members.mapM fun (name, value) => name.map (·, value)
    let known := members.filter fun (name, _) => names.contains name
    if (known.map Prod.fst).Nodup then return known else none
  | _ => none

/-- Read a field that must be present. -/
def Fields.required? {α : Type} (fields : Fields) (name : String)
    (read : Json → Option α) : Option α :=
  (fields.lookup name).bind read

/-- Read a field that stands for `absent` when it is missing. -/
def Fields.optional? {α : Type} (fields : Fields) (name : String) (absent : α)
    (read : Json → Option α) : Option α :=
  match fields.lookup name with
  | some value => read value
  | none => some absent

/-! ## Single values -/

/-- The text of a string. -/
def text? : Json → Option String
  | string text => text
  | _ => none

/-- A truth value. -/
def bool? : Json → Option Bool
  | bool value => some value
  | _ => none

/-- A natural number below 2³², written by its digits alone. -/
def word? : Json → Option UInt32
  | natural n => if n < UInt32.size then some (UInt32.ofNat n) else none
  | _ => none

/-- A value or `null`. -/
def nullable? {α : Type} (read : Json → Option α) : Json → Option (Option α)
  | null => some none
  | value => (read value).map some

/-- The items of an array, each read with what is left of the budget. -/
def list? {α : Type} (read : Nat → Json → Option α) : Nat → Json → Option (List α)
  | budget + 1, array items => items.mapM (read budget)
  | _, _ => none

/-- A list of strings. -/
def texts? (budget : Nat) (value : Json) : Option (List String) :=
  list? (fun _ => text?) budget value

/-! ## Whole texts -/

/-- How many containers that are read into structures may stand inside one
another. -/
def nestingLimit : Nat :=
  127

/-- Read a structure from a JSON text. -/
def read? {α : Type} (read : Nat → Json → Option α) (text : String) : Option α :=
  (parse? text).bind (read nestingLimit)

/-! ## Writing -/

/-- A field that is always written. -/
def field (name : String) (value : Json) : List (String × Json) :=
  [(name, value)]

/-- A field that is left out when it is absent. -/
def fieldIfSome {α : Type} (name : String) (value : Option α) (write : α → Json) :
    List (String × Json) :=
  match value with
  | some value => [(name, write value)]
  | none => []

/-- A list field that is left out when the list is empty. -/
def fieldUnlessEmpty {α : Type} (name : String) (values : List α) (write : α → Json) :
    List (String × Json) :=
  if values.isEmpty then [] else [(name, array (values.map write))]

end TestScaffold.Json
