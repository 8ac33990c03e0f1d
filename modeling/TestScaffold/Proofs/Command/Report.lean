import TestScaffold.Command.Run
import TestScaffold.Proofs.Document.DocumentSymbol
import TestScaffold.Proofs.Model.Json
/-!
# What is printed is read back

Every part of the model is read back from the text that is printed for it, in both forms
of print. A report prints the namespaces of a document as the items of an array over
several lines (`chars_array`); the text of each item is the text of its namespace at that
level, and so it is read back as well.
-/

namespace TestScaffold

open Json (chars itemsChars prettyLayout)

/-- The lines of an array at some level with the given texts for its items. -/
def arrayLines (level : Nat) : List (List Char) → List Char
  | [] => ['[', ']']
  | items => '[' :: prettyLayout.gap (level + 1)
      ++ (',' :: prettyLayout.gap (level + 1)).intercalate items
      ++ prettyLayout.gap level ++ [']']

/-- The items of an array behind its first one. -/
theorem itemsChars_eq (layout : Json.Layout) (level : Nat) (item : Json) (items : List Json) :
    chars layout level item ++ itemsChars layout level items
      = (',' :: layout.gap level).intercalate ((item :: items).map (chars layout level)) := by
  induction items generalizing item with
  | nil => simp [itemsChars]
  | cons next items ih =>
    rw [itemsChars, List.map_cons, List.map_cons, List.intercalate_cons_cons, ← List.map_cons,
      ← ih]
    simp

/-- An array over several lines. -/
theorem chars_array (level : Nat) (items : List Json) :
    chars prettyLayout level (.array items)
      = arrayLines level (items.map (chars prettyLayout (level + 1))) := by
  cases items with
  | nil => rfl
  | cons item items =>
    have hitems := itemsChars_eq prettyLayout (level + 1) item items
    rw [List.map_cons] at hitems ⊢
    rw [arrayLines, ← hitems, chars]
    · simp
    · simp

/-- The text of a report begins with the namespaces of the document. -/
theorem reportText_toJson (parsed : Intake) :
    ∃ rest, (reportText parsed.toJson).toList
      = '{' :: "\n  \"namespaces\": ".toList
        ++ arrayLines 1 (parsed.namespaces.map fun n => chars prettyLayout 2 n.toJson)
        ++ rest := by
  let failures : Json := .array (parsed.failures.map fun failure =>
    .record (Json.field "symbol" (.text failure.symbol)
      ++ Json.field "error" (.text failure.error.message)))
  have hreport : parsed.toJson = .object
      [(some "namespaces", .array (parsed.namespaces.map Namespace.toJson)),
        (some "failures", failures)] := rfl
  have hname : prettyLayout.gap 1 ++ Json.literal (some "namespaces") ++ prettyLayout.colon
      = "\n  \"namespaces\": ".toList := by decide
  refine ⟨Json.membersChars prettyLayout 1 [(some "failures", failures)] ++ prettyLayout.gap 0
    ++ ['}'] ++ ['\n'], ?_⟩
  rw [reportText, hreport, Json.pretty, String.toList_append, String.toList_ofList, chars,
    chars_array, List.map_map, ← hname]
  simp only [List.cons_append, List.append_assoc]
  rfl

/-- **What is printed for a part of the model is read back as that part**, on one line or
over several, as long as its JSON nests no deeper than the reader follows it; so are the
symbols of a document. What is printed for a document begins with an array of objects that
are read back as its namespaces, one by one. -/
theorem printed_model_reads_back :
    (∀ print ∈ [Json.compact, Json.pretty],
      (∀ t : TypeExpr, t.toJson.nesting ≤ 127 →
        Json.read? TypeExpr.ofJson? (print t.toJson) = some t)
      ∧ (∀ p : Parameter, p.toJson.nesting ≤ 127 →
        Json.read? Parameter.ofJson? (print p.toJson) = some p)
      ∧ (∀ c : Constructor, c.toJson.nesting ≤ 127 →
        Json.read? Constructor.ofJson? (print c.toJson) = some c)
      ∧ (∀ m : Method, m.toJson.nesting ≤ 127 →
        Json.read? Method.ofJson? (print m.toJson) = some m)
      ∧ (∀ c : Class, c.toJson.nesting ≤ 127 →
        Json.read? Class.ofJson? (print c.toJson) = some c)
      ∧ (∀ n : Namespace, n.toJson.nesting ≤ 127 →
        Json.read? Namespace.ofJson? (print n.toJson) = some n)
      ∧ ∀ symbols : List DocumentSymbol,
        (Json.array (symbols.map DocumentSymbol.toJson)).nesting ≤ 127 →
        DocumentSymbol.listOfJsonText? (print (.array (symbols.map DocumentSymbol.toJson)))
          = some symbols)
    ∧ ∀ (settings : Settings) (document : DocumentPaths), ∃ print : Intake → String,
      runParse settings document
          = print <$> loadDocument settings.parse.methodNamesToIgnore document
        ∧ ∀ parsed : Intake, (∀ n ∈ parsed.namespaces, n.toJson.nesting ≤ 127) →
          ∃ objects rest,
            (print parsed).toList
                = '{' :: "\n  \"namespaces\": ".toList ++ arrayLines 1 objects ++ rest
              ∧ List.Forall₂ (fun object n =>
                  Json.read? Namespace.ofJson? (String.ofList object) = some n)
                objects parsed.namespaces := by
  refine ⟨fun print hprint => ⟨?_, ?_, ?_, ?_, ?_, ?_, ?_⟩, fun settings document =>
    ⟨fun parsed => reportText parsed.toJson, ?_, fun parsed hnesting => ?_⟩⟩
  · exact fun t => Json.read?_print hprint t.written_toJson t.restores_toJson
  · exact fun p => Json.read?_print hprint p.written_toJson p.restores_toJson
  · exact fun c => Json.read?_print hprint c.written_toJson c.restores_toJson
  · exact fun m => Json.read?_print hprint m.written_toJson m.restores_toJson
  · exact fun c => Json.read?_print hprint c.written_toJson c.restores_toJson
  · exact fun n => Json.read?_print hprint n.written_toJson n.restores_toJson
  · intro symbols
    refine Json.read?_print hprint ?_ (Json.restores_list fun s _ => s.restores_toJson)
    exact Json.written_array_iff.mpr (List.forall_mem_map.mpr fun s _ => s.written_toJson)
  · rw [map_eq_pure_bind]
    rfl
  · obtain ⟨rest, htext⟩ := reportText_toJson parsed
    refine ⟨_, rest, htext, List.forall₂_map_left_iff.mpr ?_⟩
    refine List.forall₂_same.mpr fun n hn => ?_
    exact Json.read?_chars Json.prettyLayout_blank n.written_toJson n.restores_toJson
      (hnesting n hn) 2

/-! ## A queue -/

/-- The type `Dict<(int, string?), T[]?>?`. -/
def queueType : TypeExpr :=
  { name := "Dict"
    genericArguments := [
      { tupleComponents := [.named "int", { name := "string", nullable := true }] },
      { name := "T", arrayRanks := [⟨true⟩] }]
    nullable := true }

/-- A parameter with an empty list of modifiers and a default value that is the text of
`null`. -/
def queueParameter : Parameter :=
  { name := "ключ", keywords := some [], type := queueType, defaultValue := some "null" }

/-- A constructor whose attribute has a quote and a line break. -/
def queueConstructor : Constructor :=
  { name := "Queue", attributes := some ["Note(\"a\n\")"], parameters := [queueParameter] }

/-- A method with a constraint. -/
def queueMethod : Method :=
  { name := "Push", keywords := some ["public"], constraints := some ["T : class"]
    generics := [.named "T"], parameters := [queueParameter], returnType := queueType }

/-- A class with a base type and members. -/
def queueClass : Class :=
  { name := "Queue", containingNamespace := some "Demo.Queues", generics := [.named "T"]
    implements := [.ofType queueType], constructors := [queueConstructor]
    methods := [queueMethod], usings := ["System"], structureKind := .readonlyRefStruct }

/-- A namespace with that class. -/
def queueNamespace : Namespace :=
  { name := "Demo.Queues", classes := [queueClass] }

/-- The symbols of a document with that class. -/
def queueSymbols : List DocumentSymbol :=
  let place : Range := ⟨⟨0, 6⟩, ⟨4294967295, 0⟩⟩
  let field : DocumentSymbol :=
    { name := "Count", kind := .other, range := place, selectionRange := place }
  [{ name := "Queue", detail := "Demo.Queue<T>", kind := .classKind, range := place
     selectionRange := place, children := [field] }, field]

/-- The queue is read back, part by part. -/
theorem printed_model_reads_back_queue :
    (queueType.toJson.nesting ≤ 127
      ∧ Json.read? TypeExpr.ofJson? queueType.toJson.compact = some queueType)
    ∧ (queueParameter.toJson.nesting ≤ 127
      ∧ Json.read? Parameter.ofJson? queueParameter.toJson.compact = some queueParameter)
    ∧ (queueConstructor.toJson.nesting ≤ 127
      ∧ Json.read? Constructor.ofJson? queueConstructor.toJson.pretty = some queueConstructor)
    ∧ (queueMethod.toJson.nesting ≤ 127
      ∧ Json.read? Method.ofJson? queueMethod.toJson.compact = some queueMethod)
    ∧ (queueClass.toJson.nesting ≤ 127
      ∧ Json.read? Class.ofJson? queueClass.toJson.pretty = some queueClass)
    ∧ (queueNamespace.toJson.nesting ≤ 127
      ∧ Json.read? Namespace.ofJson? queueNamespace.toJson.pretty = some queueNamespace)
    ∧ ((Json.array (queueSymbols.map DocumentSymbol.toJson)).nesting ≤ 127
      ∧ DocumentSymbol.listOfJsonText?
          (Json.array (queueSymbols.map DocumentSymbol.toJson)).pretty = some queueSymbols)
    ∧ ∃ print : Intake → String,
        runParse {} ⟨"Queue.cs", "Queue.json"⟩
            = print <$> loadDocument [] ⟨"Queue.cs", "Queue.json"⟩
        ∧ Intake.namespaces { classes := [queueClass] } = [queueNamespace]
        ∧ ∃ objects rest,
            (print { classes := [queueClass] }).toList
                = '{' :: "\n  \"namespaces\": ".toList ++ arrayLines 1 objects ++ rest
              ∧ List.Forall₂ (fun object n =>
                  Json.read? Namespace.ofJson? (String.ofList object) = some n)
                objects [queueNamespace] := by
  obtain ⟨hread, hreport⟩ := printed_model_reads_back
  obtain ⟨htype, hparameter, -, hmethod, -⟩ := hread Json.compact (.head _)
  obtain ⟨-, -, hconstructor, -, hclass, hnamespace, hsymbols⟩ :=
    hread Json.pretty (.tail _ (.head _))
  have hnamespaces : Intake.namespaces { classes := [queueClass] } = [queueNamespace] := rfl
  refine ⟨⟨by decide, htype _ (by decide)⟩, ⟨by decide, hparameter _ (by decide)⟩,
    ⟨by decide, hconstructor _ (by decide)⟩, ⟨by decide, hmethod _ (by decide)⟩,
    ⟨by decide, hclass _ (by decide)⟩, ⟨by decide, hnamespace _ (by decide)⟩,
    ⟨by decide, hsymbols _ (by decide)⟩, ?_⟩
  obtain ⟨print, hprint, hobjects⟩ := hreport {} ⟨"Queue.cs", "Queue.json"⟩
  refine ⟨print, hprint, hnamespaces, ?_⟩
  have htext := hobjects { classes := [queueClass] } (by rw [hnamespaces]; decide)
  rw [hnamespaces] at htext
  exact htext

end TestScaffold
