import TestScaffold.TypeExpr.Basic
/-!
# The text of a type

A type is written as its name, as its name with the generic arguments between
`<` and `>`, or as its components between parentheses; then `?` when it is
nullable, then `[]` or `[]?` for each array rank. Types in a list are separated
by a comma and a space.
-/

namespace TestScaffold

/-- Texts with a comma and a space between them. -/
def commaJoin (texts : List (List Char)) : List Char :=
  List.intercalate [',', ' '] texts

/-- The text of an array rank. -/
def ArrayRank.chars (rank : ArrayRank) : List Char :=
  if rank.nullable then ['[', ']', '?'] else ['[', ']']

namespace TypeExpr

mutual
/-- The text of a type. -/
def chars : TypeExpr → List Char
  | ⟨name, arguments, ranks, nullable, components⟩ =>
    (if !arguments.isEmpty then
        name.toList ++ '<' :: commaJoin (charsOfAll arguments) ++ ['>']
      else if !components.isEmpty then
        '(' :: commaJoin (charsOfAll components) ++ [')']
      else name.toList)
      ++ (if nullable then ['?'] else [])
      ++ ranks.flatMap ArrayRank.chars
/-- The texts of some types. -/
def charsOfAll : List TypeExpr → List (List Char)
  | [] => []
  | t :: ts => chars t :: charsOfAll ts
end

theorem charsOfAll_eq_map (ts : List TypeExpr) : charsOfAll ts = ts.map chars := by
  induction ts with
  | nil => simp [charsOfAll]
  | cons t ts ih => simp [charsOfAll, ih]

/-- The text of a list of types. -/
def listChars (ts : List TypeExpr) : List Char :=
  commaJoin (ts.map chars)

instance : ToString TypeExpr where
  toString t := String.ofList t.chars

/-- A name with its generic arguments, if there are any. -/
def genericChars (name : String) (generics : List TypeExpr) : List Char :=
  if generics.isEmpty then name.toList
  else name.toList ++ '<' :: listChars generics ++ ['>']

end TypeExpr

end TestScaffold
