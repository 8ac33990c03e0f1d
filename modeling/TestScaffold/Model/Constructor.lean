import TestScaffold.Model.Parameter
/-!
# Constructors
-/

namespace TestScaffold

/-- A constructor of a class. -/
structure Constructor where
  /-- The name, which is that of the class. -/
  name : String
  /-- The modifiers; `none` when there were none. -/
  keywords : Option (List String) := none
  /-- The attributes without their brackets; `none` when there were none. -/
  attributes : Option (List String) := none
  /-- The parameters in order. -/
  parameters : List Parameter := []
deriving DecidableEq, Repr, Inhabited

namespace Constructor

instance : HasKeywords Constructor where
  keywordList c := c.keywords.getD []

/-- Read a constructor from the text in front of its parameter list and the text
of that list, if there is one. -/
def ofParts (head : List Char) (parameters : Option (List Char)) :
    Except DeclarationError Constructor := do
  let attributes := Declaration.peelAttributes (Text.trim head)
  let keywords := Declaration.peelKeywords Declaration.symbolKeywords attributes.rest
  let parameters ← Parameter.listOfChars (parameters.getD [])
  return {
    name := (TypeExpr.ofChars keywords.rest).name
    keywords := keywords.found
    attributes := attributes.found
    parameters }

/-- The public constructor without parameters that a class has when it declares
none. -/
def implicit (className : String) : Constructor :=
  { name := className, keywords := some ["public"] }

/-- Whether the constructor takes parameters. -/
def hasParameters (c : Constructor) : Bool :=
  !c.parameters.isEmpty

/-- The declaration without attributes and body. -/
def definition (c : Constructor) : List Char :=
  Text.trim (keywordChars c ++ ' ' :: c.name.toList
    ++ '(' :: Parameter.listChars c.parameters ++ [')'])

end Constructor

end TestScaffold
