/-!
# Modifiers

Classes, constructors, methods and parameters carry keywords. Only public
declarations that are neither static nor abstract are tested.
-/

namespace TestScaffold

/-- Declarations that carry modifier keywords. -/
class HasKeywords (α : Type) where
  /-- The keywords in source order. -/
  keywordList : α → List String

export HasKeywords (keywordList)

section

variable {α : Type} [HasKeywords α]

/-- Whether a declaration carries a keyword. -/
def hasKeyword (keyword : String) (declaration : α) : Bool :=
  (keywordList declaration).contains keyword

/-- Whether a declaration is `public`. -/
def isPublic (declaration : α) : Bool :=
  hasKeyword "public" declaration

/-- Whether a declaration is `static`. -/
def isStatic (declaration : α) : Bool :=
  hasKeyword "static" declaration

/-- Whether a declaration is `abstract`. -/
def isAbstract (declaration : α) : Bool :=
  hasKeyword "abstract" declaration

/-- Whether tests can be written for a declaration. -/
def isTestable (declaration : α) : Bool :=
  isPublic declaration && !isStatic declaration && !isAbstract declaration

/-- The keywords with single spaces between them. -/
def keywordChars (declaration : α) : List Char :=
  List.intercalate [' '] ((keywordList declaration).map String.toList)

end

end TestScaffold
