import TestScaffold.Document.Position
import TestScaffold.Json.Reader
import TestScaffold.Json.Record
import TestScaffold.Json.Shape
/-!
# Document symbols

A language server reports the symbols of a document as a tree. Each symbol has a
name, a display signature (its detail), a kind and two ranges: that of the whole
declaration and that of the name in it.

Symbols arrive as JSON. Kinds are numbers or names; names are read in any case,
and a kind this library does not know is `other`.
-/

namespace TestScaffold

/-- The kinds of symbols that are told apart. -/
inductive SymbolKind where
  | namespaceKind
  | classKind
  | structKind
  | interfaceKind
  | enumKind
  | constructorKind
  | methodKind
  | propertyKind
  | fieldKind
  | other
deriving DecidableEq, Repr, Inhabited

namespace SymbolKind

/-- The kind with a number of the language server protocol. -/
def ofCode (code : Nat) : SymbolKind :=
  match code with
  | 3 => namespaceKind
  | 5 => classKind
  | 6 => methodKind
  | 7 => propertyKind
  | 8 => fieldKind
  | 9 => constructorKind
  | 10 => enumKind
  | 11 => interfaceKind
  | 23 => structKind
  | _ => other

/-- The name of a kind. -/
def name : SymbolKind → String
  | namespaceKind => "namespace"
  | classKind => "class"
  | structKind => "struct"
  | interfaceKind => "interface"
  | enumKind => "enum"
  | constructorKind => "constructor"
  | methodKind => "method"
  | propertyKind => "property"
  | fieldKind => "field"
  | other => "other"

/-- The kinds that have a name of their own. -/
def known : List SymbolKind :=
  [namespaceKind, classKind, structKind, interfaceKind, enumKind, constructorKind,
    methodKind, propertyKind, fieldKind]

/-- The kind with a name, whatever the case of its ASCII letters. -/
def ofName (text : String) : SymbolKind :=
  (known.find? fun kind => kind.name == text.map Char.toLower).getD other

/-- Whether symbols of the kind are read as classes. -/
def isClassLike : SymbolKind → Bool
  | classKind | structKind | interfaceKind | enumKind => true
  | _ => false

end SymbolKind

/-- A symbol of a document as a language server reports it. -/
structure DocumentSymbol where
  /-- The name, for instance `Add` or `.ctor`. -/
  name : String
  /-- The display signature, for instance `Add<T>(T value)`; may be empty. -/
  detail : String := ""
  /-- What is declared. -/
  kind : SymbolKind
  /-- Where the declaration stands. -/
  range : Range
  /-- Where the name stands. -/
  selectionRange : Range
  /-- The symbols declared inside. -/
  children : List DocumentSymbol := []
deriving Repr, Inhabited

namespace DocumentSymbol

/-- The name of constructors that are reported as methods. -/
def constructorName : String :=
  ".ctor"

/-- Whether a constructor is declared. -/
def isConstructor (s : DocumentSymbol) : Bool :=
  s.kind == .constructorKind || s.name == constructorName

/-- Whether a method is declared. -/
def isMethod (s : DocumentSymbol) : Bool :=
  s.kind == .methodKind && !(s.name == constructorName)

/-- The display signature, or the name when there is none. -/
def signature (s : DocumentSymbol) : List Char :=
  if s.detail.isEmpty then s.name.toList else s.detail.toList

/-- The name up to its generic parameters. -/
def baseName (s : DocumentSymbol) : String :=
  String.ofList (s.name.toList.takeWhile (· != '<'))

end DocumentSymbol

/-! ## Symbols in JSON -/

open Json (field fieldUnlessEmpty)

namespace Position

/-- Write a position. -/
def toJson (p : Position) : Json :=
  .record [("line", .natural p.line.toNat), ("character", .natural p.character.toNat)]

/-- Read a position. -/
def ofJson? : Nat → Json → Option Position
  | 0, _ => none
  | _ + 1, json => do
    let fields ← json.fields? ["line", "character"]
    return {
      line := ← fields.required? "line" Json.word?
      character := ← fields.required? "character" Json.word? }

/-- What a position looks like in JSON. -/
def shape : Json.Shape :=
  .record "Position" [("line", true, .word), ("character", true, .word)]

end Position

namespace Range

/-- Write a range. -/
def toJson (r : Range) : Json :=
  .record [("start", r.start.toJson), ("end", r.stop.toJson)]

/-- Read a range. -/
def ofJson? : Nat → Json → Option Range
  | 0, _ => none
  | budget + 1, json => do
    let fields ← json.fields? ["start", "end"]
    return {
      start := ← fields.required? "start" (Position.ofJson? budget)
      stop := ← fields.required? "end" (Position.ofJson? budget) }

/-- What a range looks like in JSON. -/
def shape : Json.Shape :=
  .record "Range" [("start", true, Position.shape), ("end", true, Position.shape)]

end Range

namespace SymbolKind

/-- Write a kind. -/
def toJson (kind : SymbolKind) : Json :=
  .text kind.name

/-- Read a kind, given by number or by name. -/
def ofJson? : Json → Option SymbolKind
  | .string (some name) => some (ofName name)
  | value => value.word?.map fun code => ofCode code.toNat

end SymbolKind

namespace DocumentSymbol

/-- The names of the fields of a symbol. -/
def fieldNames : List String :=
  ["name", "detail", "kind", "range", "selectionRange", "children"]

mutual
/-- Write a symbol. -/
def toJson : DocumentSymbol → Json
  | ⟨name, detail, kind, range, selectionRange, children⟩ =>
    .record (field "name" (.text name)
      ++ field "detail" (.text detail)
      ++ field "kind" kind.toJson
      ++ field "range" range.toJson
      ++ field "selectionRange" selectionRange.toJson
      ++ fieldUnlessEmpty "children" (toJsonAll children) id)
/-- Write some symbols. -/
def toJsonAll : List DocumentSymbol → List Json
  | [] => []
  | s :: symbols => toJson s :: toJsonAll symbols
end

mutual
/-- Read a symbol. -/
def ofJson? : Nat → Json → Option DocumentSymbol
  | 0, _ => none
  | budget + 1, json => do
    let fields ← json.fields? fieldNames
    return {
      name := ← fields.required? "name" Json.text?
      detail := ← fields.optional? "detail" "" Json.text?
      kind := ← fields.required? "kind" SymbolKind.ofJson?
      range := ← fields.required? "range" (Range.ofJson? budget)
      selectionRange := ← fields.required? "selectionRange" (Range.ofJson? budget)
      children := ← fields.optional? "children" [] (ofJsonAll? budget) }
/-- Read some symbols. The list takes one container of the budget and each symbol
another. -/
def ofJsonAll? : Nat → Json → Option (List DocumentSymbol)
  | budget + 1, .array items => items.mapM (ofJson? budget)
  | _, _ => none
end

/-- Read the symbols of a document from the JSON array that a language server
reports. -/
def listOfJsonText? (text : String) : Option (List DocumentSymbol) :=
  Json.read? (Json.list? ofJson?) text

/-- What a symbol looks like in JSON, with children down to some depth and anything
below. -/
def shape : Nat → Json.Shape
  | 0 => .any
  | depth + 1 =>
    .record "DocumentSymbol" [("name", true, .text "a string"),
      ("detail", false, .text "a string"), ("kind", true, .wordOrText),
      ("range", true, Range.shape), ("selectionRange", true, Range.shape),
      ("children", false, .list (shape depth))]

/-- What is wrong with a text that holds no symbols. -/
def listComplaint (text : String) : String :=
  (Json.Shape.list (shape Json.nestingLimit)).complaint Json.nestingLimit text

end DocumentSymbol

end TestScaffold
