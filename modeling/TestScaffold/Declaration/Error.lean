import TestScaffold.Document.Position
/-!
# Why a declaration cannot be read

A declaration error concerns one symbol; what is made of it is up to the caller.
-/

namespace TestScaffold

/-- The reasons why a symbol cannot be read. -/
inductive DeclarationError where
  /-- No structure keyword such as `class` follows the modifiers. -/
  | noStructureKind (text : String)
  /-- What follows a method's modifiers is not a type and a name. -/
  | noReturnType (text : String)
  /-- A parameter is not a type and a name. -/
  | parameterShape (text : String)
  /-- One of two positions lies outside the document. -/
  | outsideDocument (first second : Position)
  /-- The end of a range precedes its start. -/
  | reversedRange (start stop : Position)
deriving DecidableEq, Repr

namespace DeclarationError

/-- What is wrong, in words. -/
def message : DeclarationError → String
  | noStructureKind text => "Data structure object type not found in '" ++ text ++ "'"
  | noReturnType text => "Method return type not found in '" ++ text ++ "'"
  | parameterShape text => "Parameter type and name not found in '" ++ text ++ "'"
  | outsideDocument first second =>
    "Invalid symbol input: position " ++ toString first ++ " or " ++ toString second
      ++ " is outside the document"
  | reversedRange start stop =>
    "Invalid symbol input: range end " ++ toString stop ++ " precedes start "
      ++ toString start

end DeclarationError

end TestScaffold
