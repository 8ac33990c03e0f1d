import TestScaffold.Settings.Basic
import TestScaffold.TypeExpr.Basic
/-!
# Types in tests

Types are adapted before they are written into a test: generic parameters turn
into `object`, everywhere in a type, and the nullability policy changes the marks
of the type itself and of its array ranks.
-/

namespace TestScaffold.Suite

/-- The type that stands for every generic parameter. -/
def erasedName : String :=
  "object"

/-- What becomes of the types of one test. -/
structure TypePolicy where
  /-- The names that are replaced. -/
  erased : List String
  /-- What becomes of nullable marks. -/
  nullability : Nullability
  /-- The types whose own mark is left alone. -/
  exempt : List String
deriving DecidableEq, Repr

namespace TypePolicy

/-- The policy for a test with the given generic parameters. -/
def ofSettings (settings : GenerateSettings) (genericParameters : List String) :
    TypePolicy :=
  { erased := if settings.eraseGenericParameters then genericParameters else []
    nullability := settings.nullability
    exempt := settings.nullabilityExemptTypes }

/-- What becomes of a name. -/
def eraseName (p : TypePolicy) (name : String) : String :=
  if p.erased.contains name then erasedName else name

mutual
/-- Replace the erased names everywhere in a type. -/
def erase (p : TypePolicy) : TypeExpr → TypeExpr
  | ⟨name, arguments, ranks, nullable, components⟩ =>
    ⟨p.eraseName name, eraseAll p arguments, ranks, nullable, eraseAll p components⟩
/-- Replace the erased names in some types. -/
def eraseAll (p : TypePolicy) : List TypeExpr → List TypeExpr
  | [] => []
  | t :: ts => erase p t :: eraseAll p ts
end

/-- Set the marks of a type and of its array ranks; those of an exempt type
itself stay. -/
def setNullable (p : TypePolicy) (nullable : Bool) (t : TypeExpr) : TypeExpr :=
  { t with
    nullable := if p.exempt.contains t.name then t.nullable else nullable
    arrayRanks := t.arrayRanks.map fun _ => ⟨nullable⟩ }

/-- Apply the nullability policy to a type. -/
def applyNullability (p : TypePolicy) (t : TypeExpr) : TypeExpr :=
  match p.nullability with
  | .keep => t
  | .strip => p.setNullable false t
  | .add => p.setNullable true t

/-- What becomes of a type. Whether it is exempt depends on its name behind the
erasure. -/
def adapt (p : TypePolicy) (t : TypeExpr) : TypeExpr :=
  p.applyNullability (p.erase t)

/-- What becomes of some types. -/
def adaptAll (p : TypePolicy) (ts : List TypeExpr) : List TypeExpr :=
  ts.map p.adapt

theorem eraseAll_eq_map (p : TypePolicy) (ts : List TypeExpr) :
    p.eraseAll ts = ts.map p.erase := by
  induction ts with
  | nil => simp [eraseAll]
  | cons t ts ih => simp [eraseAll, ih]

end TypePolicy

end TestScaffold.Suite
