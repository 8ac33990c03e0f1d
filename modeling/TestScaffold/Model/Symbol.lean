import TestScaffold.Model.Class
/-!
# Namespaces and the symbol tree

Namespaces hold classes, classes hold constructors and methods, and these hold
parameters. `Symbol` is any node of that tree.
-/

namespace TestScaffold

/-- A namespace with the classes declared in it. The global namespace has the
empty name. -/
structure Namespace where
  /-- The dotted name. -/
  name : String
  /-- The classes in source order. -/
  classes : List Class := []
deriving Repr, Inhabited

namespace Namespace

/-- Whether this is the global namespace. -/
def isGlobal (n : Namespace) : Bool :=
  n.name.isEmpty

/-- The declaration of a namespace. -/
def definition (n : Namespace) : List Char :=
  Text.trim ("namespace ".toList ++ n.name.toList)

end Namespace

/-- A node of the symbol tree. -/
inductive Symbol where
  | namespaceSymbol (value : Namespace)
  | classSymbol (value : Class)
  | constructorSymbol (value : Constructor)
  | methodSymbol (value : Method)
  | parameterSymbol (value : Parameter)
deriving Repr

namespace Symbol

/-- The name of a symbol. -/
def name : Symbol → String
  | namespaceSymbol n => n.name
  | classSymbol c => c.name
  | constructorSymbol c => c.name
  | methodSymbol m => m.name
  | parameterSymbol p => p.name

/-- The declaration of a symbol without its attributes and its body. -/
def definition : Symbol → List Char
  | namespaceSymbol n => n.definition
  | classSymbol c => c.definition
  | constructorSymbol c => c.definition
  | methodSymbol m => m.definition
  | parameterSymbol p => p.chars

/-- The symbols right inside a symbol. In a class the constructors come first. -/
def children : Symbol → List Symbol
  | namespaceSymbol n => n.classes.map classSymbol
  | classSymbol c =>
    c.constructors.map constructorSymbol ++ c.methods.map methodSymbol
  | constructorSymbol c => c.parameters.map parameterSymbol
  | methodSymbol m => m.parameters.map parameterSymbol
  | parameterSymbol _ => []

/-- How many levels of symbols a symbol can stand above. -/
def height : Symbol → Nat
  | namespaceSymbol _ => 3
  | classSymbol _ => 2
  | constructorSymbol _ | methodSymbol _ => 1
  | parameterSymbol _ => 0

theorem height_lt_of_mem_children {s child : Symbol} (h : child ∈ s.children) :
    child.height < s.height := by
  cases s <;> simp only [children, List.mem_append, List.mem_map, List.not_mem_nil] at h
  · obtain ⟨_, _, rfl⟩ := h
    simp [height]
  · rcases h with ⟨_, _, rfl⟩ | ⟨_, _, rfl⟩ <;> simp [height]
  · obtain ⟨_, _, rfl⟩ := h
    simp [height]
  · obtain ⟨_, _, rfl⟩ := h
    simp [height]

/-- A symbol and all symbols inside it, each in front of those inside it and with
its depth below a symbol at the given depth. -/
def walk (depth : Nat) (s : Symbol) : List (Nat × Symbol) :=
  (depth, s) :: s.children.attach.flatMap fun child => walk (depth + 1) child.1
termination_by s.height
decreasing_by exact height_lt_of_mem_children child.2

end Symbol

end TestScaffold
