/-!
# Type references

A type reference of a declaration is a plain name (`int`), a generic name
(`List<T>`) or a tuple (`(int, string)`). A nullable mark and any number of
array ranks may stand behind each of them, and each rank may carry a nullable
mark of its own: `Foo<T>?[]?`.
-/

namespace TestScaffold

/-- One `[]` behind an array type. -/
structure ArrayRank where
  /-- Whether a `?` stands behind the rank. -/
  nullable : Bool
deriving DecidableEq, Repr, Inhabited

/-- A reference to a type. In a well-formed one, a name with generic arguments
and tuple components exclude each other. -/
structure TypeExpr where
  /-- The name; empty for a tuple. -/
  name : String := ""
  /-- What stands between `<` and `>`; empty when the type is not generic. -/
  genericArguments : List TypeExpr := []
  /-- The array ranks from left to right. -/
  arrayRanks : List ArrayRank := []
  /-- Whether a `?` stands in front of the array ranks. -/
  nullable : Bool := false
  /-- What stands between the parentheses of a tuple. -/
  tupleComponents : List TypeExpr := []
deriving Repr, Inhabited

namespace TypeExpr

/-- A plain name such as `int` or `T`. -/
def named (name : String) : TypeExpr :=
  { name }

/-- A generic type such as `List<int>`. -/
def generic (name : String) (arguments : List TypeExpr) : TypeExpr :=
  { name, genericArguments := arguments }

/-- A tuple such as `(int, string)`. -/
def tuple (components : List TypeExpr) : TypeExpr :=
  { tupleComponents := components }

/-- The type with its nullable mark set or removed. -/
def withNullable (t : TypeExpr) (nullable : Bool) : TypeExpr :=
  { t with nullable }

/-- The type with further array ranks behind it, one for each nullable mark. -/
def withRanks (t : TypeExpr) (ranks : List Bool) : TypeExpr :=
  { t with arrayRanks := t.arrayRanks ++ ranks.map ArrayRank.mk }

/-- Whether the type has generic arguments. -/
def hasGenerics (t : TypeExpr) : Bool :=
  !t.genericArguments.isEmpty

/-- Whether the type is an array. -/
def isArray (t : TypeExpr) : Bool :=
  !t.arrayRanks.isEmpty

/-- Whether the type is a tuple. -/
def isTuple (t : TypeExpr) : Bool :=
  !t.tupleComponents.isEmpty

/-! ## Equality -/

mutual
/-- Equality of types is decidable, part by part. -/
protected def decEq : (a b : TypeExpr) → Decidable (a = b)
  | ⟨n, g, r, u, t⟩, ⟨n', g', r', u', t'⟩ =>
    if hn : n = n' ∧ r = r' ∧ u = u' then
      match TypeExpr.decEqList g g', TypeExpr.decEqList t t' with
      | isTrue hg, isTrue ht =>
        isTrue (by obtain ⟨rfl, rfl, rfl⟩ := hn; rw [hg, ht])
      | isFalse hg, _ => isFalse (by intro h; cases h; exact hg rfl)
      | _, isFalse ht => isFalse (by intro h; cases h; exact ht rfl)
    else isFalse (by intro h; cases h; exact hn ⟨rfl, rfl, rfl⟩)
/-- Equality of lists of types is decidable, one by one. -/
protected def decEqList : (as bs : List TypeExpr) → Decidable (as = bs)
  | [], [] => isTrue rfl
  | [], _ :: _ => isFalse (by simp)
  | _ :: _, [] => isFalse (by simp)
  | a :: as, b :: bs =>
    match TypeExpr.decEq a b, TypeExpr.decEqList as bs with
    | isTrue ha, isTrue hs => isTrue (by rw [ha, hs])
    | isFalse ha, _ => isFalse (by intro h; cases h; exact ha rfl)
    | _, isFalse hs => isFalse (by intro h; cases h; exact hs rfl)
end

instance : DecidableEq TypeExpr :=
  TypeExpr.decEq

end TypeExpr

end TestScaffold
