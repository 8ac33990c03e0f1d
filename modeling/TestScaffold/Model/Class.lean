import TestScaffold.Model.Constructor
import TestScaffold.Model.Method
import TestScaffold.Model.StructureKind
/-!
# Classes

A class here is any type declaration: a class, struct, interface, enum or
record. Its header is written as attributes, modifiers, the structure kind, the
name with generic parameters, a base list behind a colon and `where` clauses.
-/

namespace TestScaffold

/-- A declared type, or a base type of one, of which only the name and the
generic arguments are known. -/
structure Class where
  /-- The name without generic parameters. -/
  name : String
  /-- The enclosing namespace. -/
  containingNamespace : Option String := none
  /-- The modifiers; `none` when there were none. -/
  keywords : Option (List String) := none
  /-- The generic parameters. -/
  generics : List TypeExpr := []
  /-- The base types. -/
  implements : List Class := []
  /-- The `where` clauses without that word; `none` when there were none. -/
  constraints : Option (List String) := none
  /-- The attributes without their brackets; `none` when there were none. -/
  attributes : Option (List String) := none
  /-- The constructors in source order. -/
  constructors : List Constructor := []
  /-- The methods in source order. -/
  methods : List Method := []
  /-- The namespaces that the document of the class uses. -/
  usings : List String := []
  /-- What the declaration declares. -/
  structureKind : StructureKind := .classType
deriving Repr, Inhabited

namespace Class

instance : HasKeywords Class where
  keywordList c := c.keywords.getD []

/-- The class of a base type: its name and its generic arguments. -/
def ofType (t : TypeExpr) : Class :=
  { name := t.name, generics := t.genericArguments }

/-! ## Reading -/

/-- Cut a header at the first top-level colon, unless a `where` clause, which has
a colon of its own, begins in front of it. -/
def cutBaseList (text : List Char) : List Char × Option (List Char) :=
  let colon? :=
    match Scan.cutFirst? ':' text with
    | some (before, after) =>
      match Text.cutAt? Declaration.whereWord text with
      | some (head, _) =>
        if before.length < head.length then some (before, after) else none
      | none => some (before, after)
    | none => none
  match colon? with
  | some (before, after) => (Text.trim before, some (Text.trim after))
  | none => (Text.trim text, none)

/-- The classes of a base list. -/
def baseClasses (text : List Char) : List Class :=
  if text.isEmpty then []
  else (Scan.split ',' text).map fun base => ofType (TypeExpr.ofChars base)

/-- Read the header of a type declaration. The members, the namespace and the
usings are for the caller to fill in. -/
def ofDefinition (definition : List Char) : Except DeclarationError Class :=
  let text := Text.trim definition
  let attributes := Declaration.peelAttributes text
  let keywords := Declaration.peelKeywords Declaration.symbolKeywords attributes.rest
  match StructureKind.leading? keywords.rest with
  | none => .error (.noStructureKind (String.ofList text))
  | some (structureKind, header) =>
    let (head, baseList) := cutBaseList header
    let (typeText, baseText, constraints) :=
      match baseList with
      | some bases =>
        let peeled := Declaration.peelConstraints bases
        (head, peeled.rest, peeled.found)
      | none =>
        let peeled := Declaration.peelConstraints head
        (peeled.rest, [], peeled.found)
    let type := TypeExpr.ofChars typeText
    .ok
      { name := type.name
        keywords := keywords.found
        generics := type.genericArguments
        implements := baseClasses baseText
        constraints
        attributes := attributes.found
        structureKind }

/-! ## Printing -/

/-- Whether the class has generic parameters. -/
def hasGenerics (c : Class) : Bool :=
  !c.generics.isEmpty

/-- The name with its generic parameters. -/
def chars (c : Class) : List Char :=
  TypeExpr.genericChars c.name c.generics

/-- The header without attributes and constraints. -/
def definition (c : Class) : List Char :=
  let bases :=
    if c.implements.isEmpty then []
    else " : ".toList ++ commaJoin (c.implements.map chars)
  Text.trim (keywordChars c ++ ' ' :: c.structureKind.text.toList ++ ' ' :: c.chars ++ bases)

end Class

end TestScaffold
