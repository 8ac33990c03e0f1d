import TestScaffold.Model.Parameter
/-!
# Methods
-/

namespace TestScaffold

/-- A method of a class. -/
structure Method where
  /-- The name without generic parameters. -/
  name : String
  /-- The modifiers; `none` when there were none. -/
  keywords : Option (List String) := none
  /-- The attributes without their brackets; `none` when there were none. -/
  attributes : Option (List String) := none
  /-- The `where` clauses without that word; `none` when there were none. -/
  constraints : Option (List String) := none
  /-- The generic parameters. -/
  generics : List TypeExpr := []
  /-- The parameters in order. -/
  parameters : List Parameter := []
  /-- The type of the result. -/
  returnType : TypeExpr
deriving DecidableEq, Repr, Inhabited

namespace Method

instance : HasKeywords Method where
  keywordList m := m.keywords.getD []

/-- Read a method from the text in front of its parameter list and the text of
that list with the `where` clauses behind it, if there is one. In front of the
list there have to be modifiers, a return type, a space and a name. -/
def ofParts (head : List Char) (parameters : Option (List Char)) :
    Except DeclarationError Method := do
  let attributes := Declaration.peelAttributes (Text.trim head)
  let keywords := Declaration.peelKeywords Declaration.symbolKeywords attributes.rest
  match Scan.split ' ' keywords.rest with
  | [returnType, name] =>
    let list := Declaration.peelConstraints (parameters.getD [])
    let parameters ← Parameter.listOfChars list.rest
    let named := TypeExpr.ofChars name
    return {
      name := named.name
      keywords := keywords.found
      attributes := attributes.found
      constraints := list.found
      generics := named.genericArguments
      parameters
      returnType := TypeExpr.ofChars returnType }
  | _ => throw (.noReturnType (String.ofList keywords.rest))

/-- Whether the method has generic parameters. -/
def hasGenerics (m : Method) : Bool :=
  !m.generics.isEmpty

/-- Whether the method takes parameters. -/
def hasParameters (m : Method) : Bool :=
  !m.parameters.isEmpty

/-- The name with its generic parameters. -/
def chars (m : Method) : List Char :=
  TypeExpr.genericChars m.name m.generics

/-- The declaration without attributes, constraints and body. -/
def definition (m : Method) : List Char :=
  Text.trim (keywordChars m ++ ' ' :: m.returnType.chars ++ ' ' :: m.chars
    ++ '(' :: Parameter.listChars m.parameters ++ [')'])

end Method

end TestScaffold
