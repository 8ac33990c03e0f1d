import TestScaffold.Text.Digit
import TestScaffold.TypeExpr.Basic
/-!
# Generic parameter names

Generic parameters are told by their names: a single capital letter, or `T` with
digits or a word behind it. Names are collected in the order of their code
points, each once.
-/

namespace TestScaffold.Suite

/-- Whether a character may stand in the tail of a generic parameter name. -/
def isNameTail (c : Char) : Bool :=
  c.isLower || c.isDigit || c == '_'

/-- Whether a name follows the convention for generic parameters: one capital
letter, or `T` with nothing, decimal digits of any script, or capitals and then
small letters, digits and underscores behind it. All letters are ASCII ones. -/
def isGenericParameterName (name : String) : Bool :=
  match name.toList with
  | [c] => c.isUpper
  | 'T' :: rest =>
    rest.all Text.isDecimalDigit || (rest.dropWhile Char.isUpper).all isNameTail
  | _ => false

/-- Put a name at its place in a sorted list, unless it is there already. -/
def insertName (name : String) : List String → List String
  | [] => [name]
  | n :: names =>
    if name < n then name :: n :: names
    else if name = n then n :: names
    else n :: insertName name names

/-- The names in order, each once. -/
def sortNames (names : List String) : List String :=
  names.foldr insertName []

mutual
/-- The generic parameters a type names: those of its generic arguments, or else
its own name. Tuple components name none. -/
def parameterNames : TypeExpr → List String
  | ⟨name, arguments, _, _, _⟩ =>
    if arguments.isEmpty then
      if isGenericParameterName name then [name] else []
    else parameterNamesOfAll arguments
/-- The generic parameters some types name. -/
def parameterNamesOfAll : List TypeExpr → List String
  | [] => []
  | t :: ts => parameterNames t ++ parameterNamesOfAll ts
end

/-- The generic parameters some types name, in order and each once. -/
def collectGenericParameters (types : List TypeExpr) : List String :=
  sortNames (parameterNamesOfAll types)

end TestScaffold.Suite
