import TestScaffold.Document.Intake
import TestScaffold.Proofs.Model.Grouping
/-!
# The namespaces of a document

The classes of a document are grouped by namespace, a class without a namespace in the
global one. A namespace holds the classes that belong to it in the order of the document,
and the namespaces stand in the order of their first classes
(`Intake.namespaces_partition`).

What is walked through below the namespaces is then the document. That no class is
missing does not say so yet: the walk goes on into the classes, and every constructor,
method and parameter has to be met as often as it is declared. The walk is therefore
written out level by level (`Symbol.map_snd_walk_class` and its neighbours), and the symbols of
each kind are read off it.
-/

namespace TestScaffold

/-- The name of the namespace a class is in, empty for the global one. -/
def Class.namespaceName (c : Class) : String :=
  c.containingNamespace.getD ""

/-- The parameters of the constructors and of the methods of a class. -/
def Class.parameters (c : Class) : List Parameter :=
  c.constructors.flatMap Constructor.parameters ++ c.methods.flatMap Method.parameters

namespace Symbol

/-- The namespace that a symbol is. -/
def namespace? : Symbol → Option Namespace
  | namespaceSymbol n => some n
  | _ => none

/-- The class that a symbol is. -/
def class? : Symbol → Option Class
  | classSymbol c => some c
  | _ => none

/-- The constructor that a symbol is. -/
def constructor? : Symbol → Option Constructor
  | constructorSymbol c => some c
  | _ => none

/-- The method that a symbol is. -/
def method? : Symbol → Option Method
  | methodSymbol m => some m
  | _ => none

/-- The parameter that a symbol is. -/
def parameter? : Symbol → Option Parameter
  | parameterSymbol p => some p
  | _ => none

end Symbol

/-! ## The walk, level by level -/

/-- The symbols of a constructor in the order of a walk. -/
def Constructor.symbols (c : Constructor) : List Symbol :=
  .constructorSymbol c :: c.parameters.map .parameterSymbol

/-- The symbols of a method in the order of a walk. -/
def Method.symbols (m : Method) : List Symbol :=
  .methodSymbol m :: m.parameters.map .parameterSymbol

/-- The symbols of a class in the order of a walk. -/
def Class.symbols (c : Class) : List Symbol :=
  .classSymbol c :: (c.constructors.flatMap Constructor.symbols ++ c.methods.flatMap Method.symbols)

namespace Symbol

/-- A walk meets a symbol and then walks through each of its children. -/
theorem map_snd_walk (depth : Nat) (s : Symbol) :
    (s.walk depth).map Prod.snd
      = s :: s.children.flatMap fun child => (child.walk (depth + 1)).map Prod.snd := by
  rw [walk, List.map_cons, List.map_flatMap, List.flatMap_def, List.flatMap_def]
  exact congrArg (fun walks => s :: walks.flatten)
    (List.attach_map_val (f := fun child : Symbol => (child.walk (depth + 1)).map Prod.snd))

theorem map_snd_walk_parameter (depth : Nat) (p : Parameter) :
    ((parameterSymbol p).walk depth).map Prod.snd = [parameterSymbol p] := by
  rw [map_snd_walk]
  rfl

theorem map_snd_walk_constructor (depth : Nat) (c : Constructor) :
    ((constructorSymbol c).walk depth).map Prod.snd = c.symbols := by
  rw [map_snd_walk, children, List.flatMap_map]
  simp only [map_snd_walk_parameter, ← List.map_eq_flatMap]
  rfl

theorem map_snd_walk_method (depth : Nat) (m : Method) :
    ((methodSymbol m).walk depth).map Prod.snd = m.symbols := by
  rw [map_snd_walk, children, List.flatMap_map]
  simp only [map_snd_walk_parameter, ← List.map_eq_flatMap]
  rfl

theorem map_snd_walk_class (depth : Nat) (c : Class) :
    ((classSymbol c).walk depth).map Prod.snd = c.symbols := by
  rw [map_snd_walk, children, List.flatMap_append, List.flatMap_map, List.flatMap_map]
  simp only [map_snd_walk_constructor, map_snd_walk_method]
  rfl

theorem map_snd_walk_namespace (depth : Nat) (n : Namespace) :
    ((namespaceSymbol n).walk depth).map Prod.snd
      = namespaceSymbol n :: n.classes.flatMap Class.symbols := by
  rw [map_snd_walk, children, List.flatMap_map]
  simp only [map_snd_walk_class]

end Symbol

/-! ## The symbols of a class, kind by kind -/

namespace Class

variable (c : Class)

/-- What a selection takes from the symbols of a class. -/
theorem filterMap_symbols {α : Type} (select : Symbol → Option α) :
    c.symbols.filterMap select
      = (select (.classSymbol c)).toList
        ++ (c.constructors.flatMap (fun k => k.symbols.filterMap select)
          ++ c.methods.flatMap fun m => m.symbols.filterMap select) := by
  rw [symbols, List.filterMap_cons, List.filterMap_append, List.filterMap_flatMap,
    List.filterMap_flatMap]
  cases select (.classSymbol c) <;> rfl

theorem filterMap_namespace?_symbols : c.symbols.filterMap Symbol.namespace? = [] := by
  simp [filterMap_symbols, Constructor.symbols, Method.symbols, Symbol.namespace?]

theorem filterMap_class?_symbols : c.symbols.filterMap Symbol.class? = [c] := by
  simp [filterMap_symbols, Constructor.symbols, Method.symbols, Symbol.class?]

theorem filterMap_constructor?_symbols :
    c.symbols.filterMap Symbol.constructor? = c.constructors := by
  simp [filterMap_symbols, Constructor.symbols, Method.symbols, Symbol.constructor?,
    List.filterMap_cons, Function.comp_def]

theorem filterMap_method?_symbols : c.symbols.filterMap Symbol.method? = c.methods := by
  simp [filterMap_symbols, Constructor.symbols, Method.symbols, Symbol.method?,
    List.filterMap_cons, Function.comp_def]

theorem filterMap_parameter?_symbols : c.symbols.filterMap Symbol.parameter? = c.parameters := by
  simp [filterMap_symbols, Constructor.symbols, Method.symbols, Symbol.parameter?,
    List.filterMap_cons, Function.comp_def]
  rfl

end Class

namespace Intake

/-- The symbols of a document in the order of the walk through its namespaces. -/
def symbols (parsed : Intake) : List Symbol :=
  ((parsed.namespaces.map Symbol.namespaceSymbol).flatMap (Symbol.walk 0)).map Prod.snd

theorem symbols_eq (parsed : Intake) :
    parsed.symbols = parsed.namespaces.flatMap fun n =>
      Symbol.namespaceSymbol n :: n.classes.flatMap Class.symbols := by
  rw [symbols, List.map_flatMap, List.flatMap_map]
  simp only [Symbol.map_snd_walk_namespace]

/-! ## Groups -/

theorem namespaces_eq (parsed : Intake) :
    parsed.namespaces = (parsed.classes.map Class.namespaceName).eraseDups.map fun name =>
      { name, classes := parsed.classes.filter fun c => c.namespaceName = name } := by
  rw [namespaces, groupByKey_eq, List.map_map]
  rfl

/-- The namespaces hold the classes of the document. -/
theorem perm_classes (parsed : Intake) :
    (parsed.namespaces.flatMap Namespace.classes).Perm parsed.classes := by
  rw [namespaces, List.flatMap_map]
  exact perm_groupByKey _ parsed.classes

/-- The walk meets the namespaces in their order. -/
theorem filterMap_namespace?_symbols (parsed : Intake) :
    parsed.symbols.filterMap Symbol.namespace? = parsed.namespaces := by
  have hclasses : ∀ n : Namespace,
      n.classes.flatMap (fun c => c.symbols.filterMap Symbol.namespace?) = [] := fun n =>
    List.flatMap_eq_nil_iff.mpr fun c _ => c.filterMap_namespace?_symbols
  rw [symbols_eq, List.filterMap_flatMap]
  simp only [List.filterMap_cons, Symbol.namespace?, List.filterMap_flatMap, hclasses,
    List.flatMap_singleton']

/-- What the walk meets of one kind below the namespaces is what the classes hold of it. -/
theorem perm_filterMap_symbols (parsed : Intake) {α : Type} (select : Symbol → Option α)
    (hselect : ∀ n, select (.namespaceSymbol n) = none) :
    (parsed.symbols.filterMap select).Perm
      (parsed.classes.flatMap fun c => c.symbols.filterMap select) := by
  have hwalked : parsed.symbols.filterMap select
      = (parsed.namespaces.flatMap Namespace.classes).flatMap
          fun c => c.symbols.filterMap select := by
    rw [symbols_eq, List.filterMap_flatMap, List.flatMap_assoc]
    simp only [List.filterMap_cons, hselect, List.filterMap_flatMap]
  rw [hwalked]
  exact parsed.perm_classes.flatMap_right _

/-- **Grouping by namespace is a stable partition.** The namespaces are named after those of
the classes, each once and in the order of their first classes. Each of them holds the
classes that belong to it in the order of the document, and at least one. Together they
hold the classes of the document, and the walk below them meets each namespace once, and
every class, constructor, method and parameter as often as the document has it. -/
theorem namespaces_partition (parsed : Intake) :
    let keys := parsed.classes.map Class.namespaceName
    let names := parsed.namespaces.map Namespace.name
    (names.Nodup ∧ (∀ name, name ∈ names ↔ name ∈ keys)
      ∧ names.Pairwise fun a b => keys.idxOf a < keys.idxOf b)
    ∧ (parsed.namespaces = names.map (fun name =>
          { name, classes := parsed.classes.filter fun c => c.namespaceName = name })
        ∧ [] ∉ parsed.namespaces.map Namespace.classes)
    ∧ (parsed.namespaces.flatMap Namespace.classes).Perm parsed.classes
    ∧ parsed.symbols.filterMap Symbol.namespace? = parsed.namespaces
    ∧ (parsed.symbols.filterMap Symbol.class?).Perm parsed.classes
    ∧ (parsed.symbols.filterMap Symbol.constructor?).Perm
        (parsed.classes.flatMap Class.constructors)
    ∧ (parsed.symbols.filterMap Symbol.method?).Perm (parsed.classes.flatMap Class.methods)
    ∧ (parsed.symbols.filterMap Symbol.parameter?).Perm
        (parsed.classes.flatMap Class.parameters) := by
  intro keys names
  have hnames : names = keys.eraseDups := by
    show parsed.namespaces.map Namespace.name = _
    rw [namespaces_eq, List.map_map]
    exact List.map_id _
  refine ⟨⟨?_, ?_, ?_⟩, ⟨?_, ?_⟩, parsed.perm_classes, ?_, ?_, ?_, ?_, ?_⟩
  · rw [hnames]
    exact nodup_eraseDups keys
  · rw [hnames]
    exact fun name => List.mem_eraseDups
  · rw [hnames]
    exact pairwise_idxOf_eraseDups keys
  · rw [hnames]
    exact parsed.namespaces_eq
  · intro hnil
    obtain ⟨n, hn, hempty⟩ := List.mem_map.mp hnil
    rw [namespaces_eq] at hn
    obtain ⟨name, hname, rfl⟩ := List.mem_map.mp hn
    obtain ⟨c, hc, hkey⟩ := List.mem_map.mp (List.mem_eraseDups.mp hname)
    exact List.filter_eq_nil_iff.mp hempty c hc (decide_eq_true hkey)
  · exact parsed.filterMap_namespace?_symbols
  · have h := parsed.perm_filterMap_symbols Symbol.class? fun _ => rfl
    simpa only [Class.filterMap_class?_symbols, List.flatMap_singleton'] using h
  · have h := parsed.perm_filterMap_symbols Symbol.constructor? fun _ => rfl
    simpa only [Class.filterMap_constructor?_symbols] using h
  · have h := parsed.perm_filterMap_symbols Symbol.method? fun _ => rfl
    simpa only [Class.filterMap_method?_symbols] using h
  · have h := parsed.perm_filterMap_symbols Symbol.parameter? fun _ => rfl
    simpa only [Class.filterMap_parameter?_symbols] using h

/-- A namespace without a name is the global one. -/
example :
    let shop : Intake := {
      classes := [{ name := "Cart" }, { name := "Item", containingNamespace := some "Shop" },
        { name := "Order", containingNamespace := some "" }] }
    shop.namespaces.map (fun n => (n.name, n.classes.map Class.name))
      = [("", ["Cart", "Order"]), ("Shop", ["Item"])] := by
  decide

end Intake

end TestScaffold
