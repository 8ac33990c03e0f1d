import TestScaffold.Json.Record
import TestScaffold.Model.Symbol
/-!
# The model in JSON

Every part of the model is written as a JSON object and read back from one. In
writing, empty lists and absent optional fields are left out. The fields of each
structure stand in the order in which they are written.

A structure kind is written as its text; an object that maps its text to `null`
is read as well.
-/

namespace TestScaffold

open Json (field fieldIfSome fieldUnlessEmpty)

/-! ## Types -/

namespace ArrayRank

/-- Write an array rank. -/
def toJson (rank : ArrayRank) : Json :=
  .record [("nullable", .bool rank.nullable)]

/-- Read an array rank. -/
def ofJson? : Nat → Json → Option ArrayRank
  | 0, _ => none
  | _ + 1, json => do
    let fields ← json.fields? ["nullable"]
    return ⟨← fields.required? "nullable" Json.bool?⟩

end ArrayRank

namespace TypeExpr

/-- The names of the fields of a type. -/
def fieldNames : List String :=
  ["name", "generic_arguments", "array_dimensions", "nullable", "tuple_components"]

mutual
/-- Write a type. -/
def toJson : TypeExpr → Json
  | ⟨name, arguments, ranks, nullable, components⟩ =>
    .record (field "name" (.text name)
      ++ fieldUnlessEmpty "generic_arguments" (toJsonAll arguments) id
      ++ fieldUnlessEmpty "array_dimensions" ranks ArrayRank.toJson
      ++ field "nullable" (.bool nullable)
      ++ fieldUnlessEmpty "tuple_components" (toJsonAll components) id)
/-- Write some types. -/
def toJsonAll : List TypeExpr → List Json
  | [] => []
  | t :: ts => toJson t :: toJsonAll ts
end

mutual
/-- Read a type. -/
def ofJson? : Nat → Json → Option TypeExpr
  | 0, _ => none
  | budget + 1, json => do
    let fields ← json.fields? fieldNames
    return {
      name := ← fields.required? "name" Json.text?
      genericArguments := ← fields.optional? "generic_arguments" [] (ofJsonAll? budget)
      arrayRanks := ← fields.optional? "array_dimensions" []
        (Json.list? ArrayRank.ofJson? budget)
      nullable := ← fields.optional? "nullable" false Json.bool?
      tupleComponents := ← fields.optional? "tuple_components" [] (ofJsonAll? budget) }
/-- Read some types. The list takes one container of the budget and each type
another. -/
def ofJsonAll? : Nat → Json → Option (List TypeExpr)
  | budget + 1, .array items => items.mapM (ofJson? budget)
  | _, _ => none
end

end TypeExpr

/-! ## Members -/

namespace Parameter

/-- The names of the fields of a parameter. -/
def fieldNames : List String :=
  ["name", "keywords", "type", "attributes", "default_value"]

/-- Write a parameter. -/
def toJson (p : Parameter) : Json :=
  .record (field "name" (.text p.name)
    ++ fieldIfSome "keywords" p.keywords .texts
    ++ field "type" p.type.toJson
    ++ fieldIfSome "attributes" p.attributes .texts
    ++ fieldIfSome "default_value" p.defaultValue .text)

/-- Read a parameter. -/
def ofJson? : Nat → Json → Option Parameter
  | 0, _ => none
  | budget + 1, json => do
    let texts? := Json.nullable? (Json.texts? budget)
    let fields ← json.fields? fieldNames
    return {
      name := ← fields.required? "name" Json.text?
      keywords := ← fields.optional? "keywords" none texts?
      type := ← fields.required? "type" (TypeExpr.ofJson? budget)
      attributes := ← fields.optional? "attributes" none texts?
      defaultValue := ← fields.optional? "default_value" none
        (Json.nullable? Json.text?) }

end Parameter

namespace Constructor

/-- The names of the fields of a constructor. -/
def fieldNames : List String :=
  ["name", "keywords", "attributes", "parameters"]

/-- Write a constructor. -/
def toJson (c : Constructor) : Json :=
  .record (field "name" (.text c.name)
    ++ fieldIfSome "keywords" c.keywords .texts
    ++ fieldIfSome "attributes" c.attributes .texts
    ++ fieldUnlessEmpty "parameters" c.parameters Parameter.toJson)

/-- Read a constructor. -/
def ofJson? : Nat → Json → Option Constructor
  | 0, _ => none
  | budget + 1, json => do
    let texts? := Json.nullable? (Json.texts? budget)
    let fields ← json.fields? fieldNames
    return {
      name := ← fields.required? "name" Json.text?
      keywords := ← fields.optional? "keywords" none texts?
      attributes := ← fields.optional? "attributes" none texts?
      parameters := ← fields.optional? "parameters" []
        (Json.list? Parameter.ofJson? budget) }

end Constructor

namespace Method

/-- The names of the fields of a method. -/
def fieldNames : List String :=
  ["name", "keywords", "attributes", "constraints", "generics", "parameters",
    "return_type"]

/-- Write a method. -/
def toJson (m : Method) : Json :=
  .record (field "name" (.text m.name)
    ++ fieldIfSome "keywords" m.keywords .texts
    ++ fieldIfSome "attributes" m.attributes .texts
    ++ fieldIfSome "constraints" m.constraints .texts
    ++ fieldUnlessEmpty "generics" m.generics TypeExpr.toJson
    ++ fieldUnlessEmpty "parameters" m.parameters Parameter.toJson
    ++ field "return_type" m.returnType.toJson)

/-- Read a method. -/
def ofJson? : Nat → Json → Option Method
  | 0, _ => none
  | budget + 1, json => do
    let texts? := Json.nullable? (Json.texts? budget)
    let fields ← json.fields? fieldNames
    return {
      name := ← fields.required? "name" Json.text?
      keywords := ← fields.optional? "keywords" none texts?
      attributes := ← fields.optional? "attributes" none texts?
      constraints := ← fields.optional? "constraints" none texts?
      generics := ← fields.optional? "generics" []
        (Json.list? TypeExpr.ofJson? budget)
      parameters := ← fields.optional? "parameters" []
        (Json.list? Parameter.ofJson? budget)
      returnType := ← fields.required? "return_type" (TypeExpr.ofJson? budget) }

end Method

/-! ## Classes and namespaces -/

namespace StructureKind

/-- Write a structure kind. -/
def toJson (kind : StructureKind) : Json :=
  .text kind.text

/-- Read a structure kind. -/
def ofJson? : Nat → Json → Option StructureKind
  | _, .string (some text) => ofText? text
  | _ + 1, .object [(some text, .null)] => ofText? text
  | _, _ => none

end StructureKind

namespace Class

/-- The names of the fields of a class. -/
def fieldNames : List String :=
  ["name", "namespace", "keywords", "generics", "implements", "constraints",
    "attributes", "constructors", "methods", "usings", "structure_type"]

mutual
/-- Write a class. -/
def toJson : Class → Json
  | ⟨name, containingNamespace, keywords, generics, implements, constraints,
      attributes, constructors, methods, usings, structureKind⟩ =>
    .record (field "name" (.text name)
      ++ fieldIfSome "namespace" containingNamespace .text
      ++ fieldIfSome "keywords" keywords .texts
      ++ fieldUnlessEmpty "generics" generics TypeExpr.toJson
      ++ fieldUnlessEmpty "implements" (toJsonAll implements) id
      ++ fieldIfSome "constraints" constraints .texts
      ++ fieldIfSome "attributes" attributes .texts
      ++ fieldUnlessEmpty "constructors" constructors Constructor.toJson
      ++ fieldUnlessEmpty "methods" methods Method.toJson
      ++ fieldUnlessEmpty "usings" usings .text
      ++ field "structure_type" structureKind.toJson)
/-- Write some classes. -/
def toJsonAll : List Class → List Json
  | [] => []
  | c :: cs => toJson c :: toJsonAll cs
end

mutual
/-- Read a class. -/
def ofJson? : Nat → Json → Option Class
  | 0, _ => none
  | budget + 1, json => do
    let texts? := Json.nullable? (Json.texts? budget)
    let fields ← json.fields? fieldNames
    return {
      name := ← fields.required? "name" Json.text?
      containingNamespace := ← fields.optional? "namespace" none
        (Json.nullable? Json.text?)
      keywords := ← fields.optional? "keywords" none texts?
      generics := ← fields.optional? "generics" []
        (Json.list? TypeExpr.ofJson? budget)
      implements := ← fields.optional? "implements" [] (ofJsonAll? budget)
      constraints := ← fields.optional? "constraints" none texts?
      attributes := ← fields.optional? "attributes" none texts?
      constructors := ← fields.optional? "constructors" []
        (Json.list? Constructor.ofJson? budget)
      methods := ← fields.optional? "methods" []
        (Json.list? Method.ofJson? budget)
      usings := ← fields.optional? "usings" [] (Json.texts? budget)
      structureKind := ← fields.optional? "structure_type" .classType
        (StructureKind.ofJson? budget) }
/-- Read some classes. The list takes one container of the budget and each class
another. -/
def ofJsonAll? : Nat → Json → Option (List Class)
  | budget + 1, .array items => items.mapM (ofJson? budget)
  | _, _ => none
end

end Class

namespace Namespace

/-- The names of the fields of a namespace. -/
def fieldNames : List String :=
  ["name", "classes"]

/-- Write a namespace. -/
def toJson (n : Namespace) : Json :=
  .record (field "name" (.text n.name)
    ++ fieldUnlessEmpty "classes" n.classes Class.toJson)

/-- Read a namespace. -/
def ofJson? : Nat → Json → Option Namespace
  | 0, _ => none
  | budget + 1, json => do
    let fields ← json.fields? fieldNames
    return {
      name := ← fields.required? "name" Json.text?
      classes := ← fields.optional? "classes" []
        (Json.list? Class.ofJson? budget) }

end Namespace

end TestScaffold
