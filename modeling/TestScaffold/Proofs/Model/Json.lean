import TestScaffold.Command.Report
import TestScaffold.Document.DocumentSymbol
import TestScaffold.Model.Json
import TestScaffold.Proofs.Json.Record
/-!
# The model is read back from its JSON

Every part of the model has a `written_toJson`, which says that its JSON has a text, and a
`restores_toJson`, which says that it is read back from its JSON within the budget that
its containers take. Both follow the structures: the slots of each one are its fields as
they are written, and each field is read back by what restores its type. Types, classes
and symbols contain others of their own kind, so theirs are by recursion on the value.
-/

namespace TestScaffold

open Json (Written Restores present listSlot restores_record restores_text restores_bool
  restores_word)

/-! ## Types -/

namespace ArrayRank

theorem written_toJson (rank : ArrayRank) : Written rank.toJson := by
  show Written (.record (Json.field "nullable" (.bool rank.nullable)))
  simp

/-- The slots of an array rank. -/
def slots (rank : ArrayRank) : List (String × Option Json) :=
  [("nullable", some (.bool rank.nullable))]

theorem restores_toJson (rank : ArrayRank) : Restores ofJson? rank rank.toJson := by
  show Restores ofJson? rank (.record (present rank.slots))
  refine restores_record ["nullable"] rfl (by decide) fun budget fits hfields => ?_
  have hnullable := fits.required "nullable" (by simp [slots]) (restores_bool rank.nullable)
  rw [ofJson?, hfields]
  simp only [Option.bind_eq_bind, Option.bind_some, hnullable]
  rfl

end ArrayRank

namespace TypeExpr

theorem toJsonAll_eq_map (ts : List TypeExpr) : toJsonAll ts = ts.map toJson := by
  induction ts with
  | nil => rfl
  | cons t ts ih => rw [toJsonAll, ih, List.map_cons]

theorem ofJsonAll?_eq_list? (budget : Nat) :
    ofJsonAll? budget = Json.list? ofJson? budget := by
  funext json
  cases budget <;> cases json <;> rfl

/-- The slots of a type. -/
def slots (t : TypeExpr) : List (String × Option Json) :=
  [("name", some (.text t.name)),
    ("generic_arguments", listSlot toJson t.genericArguments),
    ("array_dimensions", listSlot ArrayRank.toJson t.arrayRanks),
    ("nullable", some (.bool t.nullable)),
    ("tuple_components", listSlot toJson t.tupleComponents)]

theorem toJson_eq (t : TypeExpr) : t.toJson = .record (present t.slots) := by
  obtain ⟨name, arguments, ranks, nullable, components⟩ := t
  simp only [toJson, toJsonAll_eq_map, Json.field_eq_present,
    Json.fieldUnlessEmpty_eq_present, ← Json.present_append]
  simp [slots, listSlot]

theorem written_toJson : ∀ t : TypeExpr, Written t.toJson
  | ⟨name, arguments, ranks, nullable, components⟩ => by
    have harguments : ∀ a ∈ arguments, Written a.toJson := fun a _ => written_toJson a
    have hcomponents : ∀ a ∈ components, Written a.toJson := fun a _ => written_toJson a
    simpa [toJson, toJsonAll_eq_map, ArrayRank.written_toJson] using ⟨harguments, hcomponents⟩

theorem restores_toJson : ∀ t : TypeExpr, Restores ofJson? t t.toJson
  | ⟨name, arguments, ranks, nullable, components⟩ => by
    have harguments : ∀ a ∈ arguments, Restores ofJson? a a.toJson :=
      fun a _ => restores_toJson a
    have hcomponents : ∀ a ∈ components, Restores ofJson? a a.toJson :=
      fun a _ => restores_toJson a
    rw [toJson_eq]
    refine restores_record fieldNames rfl (by decide) fun budget fits hfields => ?_
    have hname := fits.required "name" (by simp [slots]) (restores_text name)
    have hnullable := fits.defaulted "nullable" false (by simp [slots]) (restores_bool nullable)
    have harguments := fits.list "generic_arguments" (by simp [slots]) harguments
    have hranks := fits.list "array_dimensions" (by simp [slots])
      fun rank (_ : rank ∈ ranks) => rank.restores_toJson
    have hcomponents := fits.list "tuple_components" (by simp [slots]) hcomponents
    rw [ofJson?, hfields]
    simp only [ofJsonAll?_eq_list?, Option.bind_eq_bind, Option.bind_some, hname, harguments,
      hranks, hnullable, hcomponents]
    rfl

end TypeExpr

/-! ## Members -/

namespace Parameter

theorem written_toJson (p : Parameter) : Written p.toJson := by
  simp [toJson, TypeExpr.written_toJson]

/-- The slots of a parameter. -/
def slots (p : Parameter) : List (String × Option Json) :=
  [("name", some (.text p.name)),
    ("keywords", p.keywords.map .texts),
    ("type", some p.type.toJson),
    ("attributes", p.attributes.map .texts),
    ("default_value", p.defaultValue.map .text)]

theorem toJson_eq (p : Parameter) : p.toJson = .record (present p.slots) := by
  simp only [toJson, Json.field_eq_present, Json.fieldIfSome_eq_present, ← Json.present_append]
  rfl

theorem restores_toJson (p : Parameter) : Restores ofJson? p p.toJson := by
  rw [toJson_eq]
  refine restores_record fieldNames rfl (by decide) fun budget fits hfields => ?_
  have hname := fits.required "name" (by simp [slots]) (restores_text p.name)
  have hkeywords := fits.optionalTexts "keywords" p.keywords (by simp [slots])
  have htype := fits.required "type" (by simp [slots]) p.type.restores_toJson
  have hattributes := fits.optionalTexts "attributes" p.attributes (by simp [slots])
  have hdefault := fits.optionalText "default_value" p.defaultValue (by simp [slots])
  rw [ofJson?, hfields]
  simp only [Option.bind_eq_bind, Option.bind_some, hname, hkeywords, htype, hattributes, hdefault]
  rfl

end Parameter

namespace Constructor

theorem written_toJson (c : Constructor) : Written c.toJson := by
  simp [toJson, Parameter.written_toJson]

/-- The slots of a constructor. -/
def slots (c : Constructor) : List (String × Option Json) :=
  [("name", some (.text c.name)),
    ("keywords", c.keywords.map .texts),
    ("attributes", c.attributes.map .texts),
    ("parameters", listSlot Parameter.toJson c.parameters)]

theorem toJson_eq (c : Constructor) : c.toJson = .record (present c.slots) := by
  simp only [toJson, Json.field_eq_present, Json.fieldIfSome_eq_present,
    Json.fieldUnlessEmpty_eq_present, ← Json.present_append]
  rfl

theorem restores_toJson (c : Constructor) : Restores ofJson? c c.toJson := by
  rw [toJson_eq]
  refine restores_record fieldNames rfl (by decide) fun budget fits hfields => ?_
  have hname := fits.required "name" (by simp [slots]) (restores_text c.name)
  have hkeywords := fits.optionalTexts "keywords" c.keywords (by simp [slots])
  have hattributes := fits.optionalTexts "attributes" c.attributes (by simp [slots])
  have hparameters := fits.list "parameters" (by simp [slots])
    fun p (_ : p ∈ c.parameters) => p.restores_toJson
  rw [ofJson?, hfields]
  simp only [Option.bind_eq_bind, Option.bind_some, hname, hkeywords, hattributes, hparameters]
  rfl

end Constructor

namespace Method

theorem written_toJson (m : Method) : Written m.toJson := by
  simp [toJson, TypeExpr.written_toJson, Parameter.written_toJson]

/-- The slots of a method. -/
def slots (m : Method) : List (String × Option Json) :=
  [("name", some (.text m.name)),
    ("keywords", m.keywords.map .texts),
    ("attributes", m.attributes.map .texts),
    ("constraints", m.constraints.map .texts),
    ("generics", listSlot TypeExpr.toJson m.generics),
    ("parameters", listSlot Parameter.toJson m.parameters),
    ("return_type", some m.returnType.toJson)]

theorem toJson_eq (m : Method) : m.toJson = .record (present m.slots) := by
  simp only [toJson, Json.field_eq_present, Json.fieldIfSome_eq_present,
    Json.fieldUnlessEmpty_eq_present, ← Json.present_append]
  rfl

theorem restores_toJson (m : Method) : Restores ofJson? m m.toJson := by
  rw [toJson_eq]
  refine restores_record fieldNames rfl (by decide) fun budget fits hfields => ?_
  have hname := fits.required "name" (by simp [slots]) (restores_text m.name)
  have hkeywords := fits.optionalTexts "keywords" m.keywords (by simp [slots])
  have hattributes := fits.optionalTexts "attributes" m.attributes (by simp [slots])
  have hconstraints := fits.optionalTexts "constraints" m.constraints (by simp [slots])
  have hgenerics := fits.list "generics" (by simp [slots])
    fun t (_ : t ∈ m.generics) => t.restores_toJson
  have hparameters := fits.list "parameters" (by simp [slots])
    fun p (_ : p ∈ m.parameters) => p.restores_toJson
  have hreturn := fits.required "return_type" (by simp [slots]) m.returnType.restores_toJson
  rw [ofJson?, hfields]
  simp only [Option.bind_eq_bind, Option.bind_some, hname, hkeywords, hattributes, hconstraints,
    hgenerics, hparameters, hreturn]
  rfl

end Method

/-! ## Classes and namespaces -/

namespace StructureKind

/-- Each kind has a text of its own. -/
theorem ofText?_text (kind : StructureKind) : ofText? kind.text = some kind := by
  cases kind <;> decide

theorem restores_toJson (kind : StructureKind) : Restores ofJson? kind kind.toJson := by
  intro budget _
  show ofJson? budget (.string (some kind.text)) = some kind
  rw [ofJson?, ofText?_text]

end StructureKind

namespace Class

theorem toJsonAll_eq_map (cs : List Class) : toJsonAll cs = cs.map toJson := by
  induction cs with
  | nil => rfl
  | cons c cs ih => rw [toJsonAll, ih, List.map_cons]

theorem ofJsonAll?_eq_list? (budget : Nat) :
    ofJsonAll? budget = Json.list? ofJson? budget := by
  funext json
  cases budget <;> cases json <;> rfl

theorem written_toJson : ∀ c : Class, Written c.toJson
  | ⟨name, containingNamespace, keywords, generics, implements, constraints, attributes,
      constructors, methods, usings, structureKind⟩ => by
    have himplements : ∀ c ∈ implements, Written c.toJson := fun c _ => written_toJson c
    simpa [toJson, toJsonAll_eq_map, TypeExpr.written_toJson, Constructor.written_toJson,
      Method.written_toJson, StructureKind.toJson] using himplements

/-- The slots of a class. -/
def slots (c : Class) : List (String × Option Json) :=
  [("name", some (.text c.name)),
    ("namespace", c.containingNamespace.map .text),
    ("keywords", c.keywords.map .texts),
    ("generics", listSlot TypeExpr.toJson c.generics),
    ("implements", listSlot toJson c.implements),
    ("constraints", c.constraints.map .texts),
    ("attributes", c.attributes.map .texts),
    ("constructors", listSlot Constructor.toJson c.constructors),
    ("methods", listSlot Method.toJson c.methods),
    ("usings", listSlot .text c.usings),
    ("structure_type", some c.structureKind.toJson)]

theorem toJson_eq (c : Class) : c.toJson = .record (present c.slots) := by
  obtain ⟨name, containingNamespace, keywords, generics, implements, constraints, attributes,
    constructors, methods, usings, structureKind⟩ := c
  simp only [toJson, toJsonAll_eq_map, Json.field_eq_present, Json.fieldIfSome_eq_present,
    Json.fieldUnlessEmpty_eq_present, ← Json.present_append]
  simp [slots, listSlot]

theorem restores_toJson : ∀ c : Class, Restores ofJson? c c.toJson
  | ⟨name, containingNamespace, keywords, generics, implements, constraints, attributes,
      constructors, methods, usings, structureKind⟩ => by
    have himplements : ∀ c ∈ implements, Restores ofJson? c c.toJson :=
      fun c _ => restores_toJson c
    rw [toJson_eq]
    refine restores_record fieldNames rfl (by decide) fun budget fits hfields => ?_
    have hname := fits.required "name" (by simp [slots]) (restores_text name)
    have hnamespace := fits.optionalText "namespace" containingNamespace (by simp [slots])
    have hkeywords := fits.optionalTexts "keywords" keywords (by simp [slots])
    have hgenerics := fits.list "generics" (by simp [slots])
      fun t (_ : t ∈ generics) => t.restores_toJson
    have himplements := fits.list "implements" (by simp [slots]) himplements
    have hconstraints := fits.optionalTexts "constraints" constraints (by simp [slots])
    have hattributes := fits.optionalTexts "attributes" attributes (by simp [slots])
    have hconstructors := fits.list "constructors" (by simp [slots])
      fun c (_ : c ∈ constructors) => c.restores_toJson
    have hmethods := fits.list "methods" (by simp [slots])
      fun m (_ : m ∈ methods) => m.restores_toJson
    have husings := fits.texts "usings" usings (by simp [slots])
    have hkind := fits.defaulted "structure_type" .classType (by simp [slots])
      structureKind.restores_toJson
    rw [ofJson?, hfields]
    simp only [ofJsonAll?_eq_list?, Option.bind_eq_bind, Option.bind_some, hname, hnamespace,
      hkeywords, hgenerics, himplements, hconstraints, hattributes, hconstructors, hmethods,
      husings, hkind]
    rfl

end Class

namespace Namespace

theorem written_toJson (n : Namespace) : Written n.toJson := by
  simp [toJson, Class.written_toJson]

/-- The slots of a namespace. -/
def slots (n : Namespace) : List (String × Option Json) :=
  [("name", some (.text n.name)), ("classes", listSlot Class.toJson n.classes)]

theorem toJson_eq (n : Namespace) : n.toJson = .record (present n.slots) := by
  simp only [toJson, Json.field_eq_present, Json.fieldUnlessEmpty_eq_present,
    ← Json.present_append]
  rfl

theorem restores_toJson (n : Namespace) : Restores ofJson? n n.toJson := by
  rw [toJson_eq]
  refine restores_record fieldNames rfl (by decide) fun budget fits hfields => ?_
  have hname := fits.required "name" (by simp [slots]) (restores_text n.name)
  have hclasses := fits.list "classes" (by simp [slots])
    fun c (_ : c ∈ n.classes) => c.restores_toJson
  rw [ofJson?, hfields]
  simp only [Option.bind_eq_bind, Option.bind_some, hname, hclasses]
  rfl

end Namespace

end TestScaffold
