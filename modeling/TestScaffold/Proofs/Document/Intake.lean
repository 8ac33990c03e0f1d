import Mathlib.Data.List.Forall2
import TestScaffold.Document.Intake
/-!
# What becomes of the symbols of a document

`intake` walks through the symbols of a document and sorts what it reads into classes and
failures. Three relations say what should become of a symbol, without the walk. `Reached`
lists the class-like symbols that namespaces alone stand around, each with the namespace
it is in. `ClassRead` says what one of them adds to the document: a class, or its own
failure and nothing else. `MemberRead` says what a symbol inside a class comes to.

Each relation has one answer for every input (`reached_iff`, `classRead_iff`,
`memberRead_iff`), and the walk adds up these answers in the order of the symbols
(`intake_loses_nothing`). The answer for a member is one function of the member; what
stands beside it or around it is no argument of that function.
-/

namespace TestScaffold

/-! ## Headers without a structure keyword -/

/-- What follows the attributes and modifiers of a header begins with none of the
structure keywords. -/
def Class.Shapeless (definition : List Char) : Prop :=
  StructureKind.leading? (Declaration.peelKeywords Declaration.symbolKeywords
    (Declaration.peelAttributes (Text.trim definition)).rest).rest = none

/-- **A header is refused for its structure keyword only.** -/
theorem Class.ofDefinition_eq_error_iff {definition : List Char} {error : DeclarationError} :
    Class.ofDefinition definition = .error error ↔
      Class.Shapeless definition
        ∧ error = .noStructureKind (String.ofList (Text.trim definition)) := by
  unfold Class.ofDefinition Class.Shapeless
  dsimp only
  split
  · rename_i hnone
    simp [hnone, eq_comm]
  · rename_i hsome
    simp [hsome]

namespace Intake

variable {source : Source} {ignored : List String} {enclosing : Option String}
  {s : DocumentSymbol} {symbols : List DocumentSymbol}

/-! ## The members of a class -/

/-- Whether a symbol declares a constructor: by its kind or by its name. -/
def DeclaresConstructor (s : DocumentSymbol) : Prop :=
  s.kind = .constructorKind ∨ s.name = ".ctor"

/-- The constructor that a symbol declares. -/
def constructorOf (source : Source) (s : DocumentSymbol) :
    Except DeclarationError Constructor := do
  let text ← declaration source .constructor s
  Constructor.ofParts text.definition text.parameters

/-- The method that a symbol declares. -/
def methodOf (source : Source) (s : DocumentSymbol) : Except DeclarationError Method := do
  let text ← declaration source .method s
  Method.ofParts text.definition text.parameters

/-- **What a symbol inside a class comes to.** A constructor and a method are read or
fail, a failure carrying the name of the symbol; a method on the list of ignored ones and
a symbol that is neither constructor nor method come to nothing. -/
inductive MemberRead (source : Source) (ignored : List String) (s : DocumentSymbol) :
    Contribution → Prop
  | constructor {c : Constructor} (declares : DeclaresConstructor s)
      (read : constructorOf source s = .ok c) : MemberRead source ignored s (.constructor c)
  | constructorFailed {e : DeclarationError} (declares : DeclaresConstructor s)
      (failed : constructorOf source s = .error e) :
      MemberRead source ignored s (.failure ⟨s.name, e⟩)
  | method {m : Method} (kind : s.kind = .methodKind) (name : s.name ≠ ".ctor")
      (wanted : s.baseName ∉ ignored) (read : methodOf source s = .ok m) :
      MemberRead source ignored s (.method m)
  | methodFailed {e : DeclarationError} (kind : s.kind = .methodKind)
      (name : s.name ≠ ".ctor") (wanted : s.baseName ∉ ignored)
      (failed : methodOf source s = .error e) :
      MemberRead source ignored s (.failure ⟨s.name, e⟩)
  | ignoredMethod (kind : s.kind = .methodKind) (name : s.name ≠ ".ctor")
      (unwanted : s.baseName ∈ ignored) : MemberRead source ignored s .nothing
  | other (declares : ¬DeclaresConstructor s) (kind : s.kind ≠ .methodKind) :
      MemberRead source ignored s .nothing

theorem isConstructor_eq_true_iff : s.isConstructor = true ↔ DeclaresConstructor s := by
  simp [DocumentSymbol.isConstructor, DeclaresConstructor, DocumentSymbol.constructorName]

theorem isMethod_eq_true_iff :
    s.isMethod = true ↔ s.kind = .methodKind ∧ s.name ≠ ".ctor" := by
  simp [DocumentSymbol.isMethod, DocumentSymbol.constructorName]

/-- Being a constructor takes precedence over being a method. -/
theorem not_declaresConstructor (kind : s.kind = .methodKind) (name : s.name ≠ ".ctor") :
    ¬DeclaresConstructor s := by
  rintro (h | h)
  · rw [kind] at h
    cases h
  · exact name h

/-- The intake of a constructor. -/
theorem contribution_of_declaresConstructor (h : DeclaresConstructor s) :
    contribution source ignored s = .ofResult s .constructor (constructorOf source s) := by
  rw [contribution, if_pos (isConstructor_eq_true_iff.mpr h)]
  rfl

/-- The intake of a method. -/
theorem contribution_of_method (kind : s.kind = .methodKind) (name : s.name ≠ ".ctor") :
    contribution source ignored s =
      if s.baseName ∈ ignored then .nothing
      else .ofResult s .method (methodOf source s) := by
  rw [contribution,
    if_neg (mt isConstructor_eq_true_iff.mp (not_declaresConstructor kind name)),
    if_pos (isMethod_eq_true_iff.mpr ⟨kind, name⟩)]
  simp only [List.contains_iff_mem]
  rfl

/-- The intake of any other symbol. -/
theorem contribution_of_other (h : ¬DeclaresConstructor s) (kind : s.kind ≠ .methodKind) :
    contribution source ignored s = .nothing := by
  rw [contribution, if_neg (mt isConstructor_eq_true_iff.mp h),
    if_neg fun hmethod => kind (isMethod_eq_true_iff.mp hmethod).1]

/-- The intake of a member is what the member comes to. -/
theorem memberRead_contribution : MemberRead source ignored s (contribution source ignored s) := by
  by_cases hc : DeclaresConstructor s
  · rw [contribution_of_declaresConstructor hc]
    cases hread : constructorOf source s with
    | ok c => exact .constructor hc hread
    | error e => exact .constructorFailed hc hread
  by_cases hkind : s.kind = .methodKind
  · have hname : s.name ≠ ".ctor" := fun h => hc (.inr h)
    rw [contribution_of_method hkind hname]
    by_cases hignored : s.baseName ∈ ignored
    · rw [if_pos hignored]
      exact .ignoredMethod hkind hname hignored
    rw [if_neg hignored]
    cases hread : methodOf source s with
    | ok m => exact .method hkind hname hignored hread
    | error e => exact .methodFailed hkind hname hignored hread
  · rw [contribution_of_other hc hkind]
    exact .other hc hkind

/-- **A member comes to one thing**, its intake. -/
theorem memberRead_iff {outcome : Contribution} :
    MemberRead source ignored s outcome ↔ outcome = contribution source ignored s := by
  constructor
  · intro h
    cases h with
    | constructor declares read | constructorFailed declares read =>
      rw [contribution_of_declaresConstructor declares, read]
      rfl
    | method kind name wanted read | methodFailed kind name wanted read =>
      rw [contribution_of_method kind name, if_neg wanted, read]
      rfl
    | ignoredMethod kind name unwanted =>
      rw [contribution_of_method kind name, if_pos unwanted]
    | other declares kind => rw [contribution_of_other declares kind]
  · rintro rfl
    exact memberRead_contribution

/-! ## Classes -/

/-- **What a class-like symbol adds to a document**, when its children come to `outcome`.
A symbol whose leading text cannot be sliced or whose header has no structure keyword adds
one failure with its own name, whatever its children are. Any other symbol adds one class
with what its children come to, in their order. -/
inductive ClassRead (source : Source) (outcome : DocumentSymbol → Contribution)
    (enclosing : Option String) (s : DocumentSymbol) : Intake → Prop
  | unsliced {e : DeclarationError}
      (slice : source.slice s.range.start s.selectionRange.start = .error e) :
      ClassRead source outcome enclosing s ⟨[], [⟨s.name, e⟩]⟩
  | shapeless {leading definition : List Char}
      (slice : source.slice s.range.start s.selectionRange.start = .ok leading)
      (extracted : definition
        = (Declaration.extract leading s.signature s.name.toList .classLike).definition)
      (shapeless : Class.Shapeless definition) :
      ClassRead source outcome enclosing s
        ⟨[], [⟨s.name, .noStructureKind (String.ofList (Text.trim definition))⟩]⟩
  | read {leading definition : List Char} {header : Class}
      (slice : source.slice s.range.start s.selectionRange.start = .ok leading)
      (extracted : definition
        = (Declaration.extract leading s.signature s.name.toList .classLike).definition)
      (read : Class.ofDefinition definition = .ok header) :
      ClassRead source outcome enclosing s
        { classes := [{ header with
            containingNamespace := enclosing
              <|> (Declaration.qualifiedNamespace? s.signature).map String.ofList
            usings := source.usings s.range.start.line.toNat
            constructors := (s.children.map outcome).filterMap Contribution.constructor?
            methods := (s.children.map outcome).filterMap Contribution.method? }]
          failures := (s.children.map outcome).filterMap Contribution.failure? }

/-- **A class-like symbol adds one thing**, its intake. -/
theorem classRead_iff {part : Intake} :
    ClassRead source (contribution source ignored) enclosing s part ↔
      part = ofClassSymbol source ignored enclosing s := by
  unfold ofClassSymbol classHeader declaration
  constructor
  · intro h
    cases h with
    | unsliced slice => rw [slice]; rfl
    | shapeless slice extracted shapeless =>
      have herror := Class.ofDefinition_eq_error_iff.mpr ⟨shapeless, rfl⟩
      rw [extracted] at herror
      rw [slice, extracted]
      simp only [bind, Except.bind, pure, Except.pure, herror]
    | read slice extracted read =>
      rw [extracted] at read
      rw [slice]
      simp only [bind, Except.bind, pure, Except.pure, read]
  · rintro rfl
    cases hslice : source.slice s.range.start s.selectionRange.start with
    | error e => exact .unsliced hslice
    | ok leading =>
      simp only [bind, Except.bind, pure, Except.pure]
      cases hread : Class.ofDefinition
          (Declaration.extract leading s.signature s.name.toList .classLike).definition with
      | error e =>
        obtain ⟨hshapeless, rfl⟩ := Class.ofDefinition_eq_error_iff.mp hread
        exact .shapeless hslice rfl hshapeless
      | ok header =>
        exact @ClassRead.read source _ enclosing s leading _ header hslice rfl hread

/-! ## Through the namespaces -/

/-- **The class-like symbols that namespaces alone stand around**, in the order of the
document, each with the name of the innermost namespace around it. -/
inductive Reached : Option String → List DocumentSymbol →
    List (Option String × DocumentSymbol) → Prop
  | nil {enclosing : Option String} : Reached enclosing [] []
  | inside {enclosing : Option String} {s : DocumentSymbol} {symbols : List DocumentSymbol}
      {inner outer : List (Option String × DocumentSymbol)}
      (kind : s.kind = .namespaceKind) (children : Reached (some s.name) s.children inner)
      (rest : Reached enclosing symbols outer) :
      Reached enclosing (s :: symbols) (inner ++ outer)
  | classLike {enclosing : Option String} {s : DocumentSymbol} {symbols : List DocumentSymbol}
      {outer : List (Option String × DocumentSymbol)}
      (kind : s.kind ∈ [.classKind, .structKind, .interfaceKind, .enumKind])
      (rest : Reached enclosing symbols outer) :
      Reached enclosing (s :: symbols) ((enclosing, s) :: outer)
  | other {enclosing : Option String} {s : DocumentSymbol} {symbols : List DocumentSymbol}
      {outer : List (Option String × DocumentSymbol)}
      (kind : s.kind ∉ [.namespaceKind, .classKind, .structKind, .interfaceKind, .enumKind])
      (rest : Reached enclosing symbols outer) : Reached enclosing (s :: symbols) outer

/-- The symbols that are reached are determined. -/
theorem Reached.unique {found other : List (Option String × DocumentSymbol)}
    (h : Reached enclosing symbols found) (h' : Reached enclosing symbols other) :
    other = found := by
  induction h generalizing other with
  | nil => cases h'; rfl
  | inside kind children rest ihChildren ih =>
    cases h' with
    | inside _ children' rest' => rw [ihChildren children', ih rest']
    | classLike kind' _ | other kind' _ => simp [kind] at kind'
  | classLike kind rest ih =>
    cases h' with
    | inside kind' _ _ => simp [kind'] at kind
    | classLike _ rest' => rw [ih rest']
    | other kind' _ => exact absurd (List.mem_cons_of_mem _ kind) kind'
  | other kind rest ih =>
    cases h' with
    | inside kind' _ _ => simp [kind'] at kind
    | classLike kind' _ => exact absurd (List.mem_cons_of_mem _ kind') kind
    | other _ rest' => exact ih rest'

@[simp] theorem classes_append (a b : Intake) : (a ++ b).classes = a.classes ++ b.classes :=
  rfl

@[simp] theorem failures_append (a b : Intake) :
    (a ++ b).failures = a.failures ++ b.failures :=
  rfl

/-- The intake of a namespace is that of the symbols inside it. -/
theorem ofSymbol_of_namespace (kind : s.kind = .namespaceKind) :
    ofSymbol source ignored enclosing s = ofSymbols source ignored (some s.name) s.children := by
  obtain ⟨name, detail, _, range, selectionRange, children⟩ := s
  cases kind
  rw [ofSymbol]

/-- The intake of a class-like symbol. -/
theorem ofSymbol_of_classLike
    (kind : s.kind ∈ [.classKind, .structKind, .interfaceKind, .enumKind]) :
    ofSymbol source ignored enclosing s = ofClassSymbol source ignored enclosing s := by
  obtain ⟨name, detail, k, range, selectionRange, children⟩ := s
  simp only [List.mem_cons, List.not_mem_nil, or_false] at kind
  rcases kind with rfl | rfl | rfl | rfl <;> rfl

/-- Other symbols add nothing. -/
theorem ofSymbol_of_other
    (kind : s.kind ∉ [.namespaceKind, .classKind, .structKind, .interfaceKind, .enumKind]) :
    ofSymbol source ignored enclosing s = {} := by
  obtain ⟨name, detail, k, range, selectionRange, children⟩ := s
  cases k with
  | namespaceKind | classKind | structKind | interfaceKind | enumKind => simp at kind
  | constructorKind | methodKind | propertyKind | fieldKind | other => rfl

/-- **The walk adds up the intakes of the symbols that are reached**, by induction on
the symbols with the children of namespaces. -/
theorem exists_reached (source : Source) (ignored : List String) :
    ∀ (enclosing : Option String) (symbols : List DocumentSymbol),
      ∃ found, Reached enclosing symbols found
        ∧ (ofSymbols source ignored enclosing symbols).classes
          = found.flatMap (fun p => (ofClassSymbol source ignored p.1 p.2).classes)
        ∧ (ofSymbols source ignored enclosing symbols).failures
          = found.flatMap (fun p => (ofClassSymbol source ignored p.1 p.2).failures)
  | enclosing, [] => ⟨[], .nil, rfl, rfl⟩
  | enclosing, s :: symbols => by
    obtain ⟨outer, hreached, hclasses, hfailures⟩ :=
      exists_reached source ignored enclosing symbols
    by_cases hnamespace : s.kind = .namespaceKind
    · obtain ⟨inner, hinner, hclasses', hfailures'⟩ :=
        exists_reached source ignored (some s.name) s.children
      refine ⟨inner ++ outer, .inside hnamespace hinner hreached, ?_, ?_⟩ <;>
        simp [ofSymbols, ofSymbol_of_namespace hnamespace, *]
    by_cases hclass : s.kind ∈ [.classKind, .structKind, .interfaceKind, .enumKind]
    · refine ⟨(enclosing, s) :: outer, .classLike hclass hreached, ?_, ?_⟩ <;>
        simp [ofSymbols, ofSymbol_of_classLike hclass, *]
    · have hother : s.kind ∉
          [.namespaceKind, .classKind, .structKind, .interfaceKind, .enumKind] :=
        fun h => (List.mem_cons.mp h).elim hnamespace hclass
      refine ⟨outer, .other hother hreached, ?_, ?_⟩ <;>
        simp [ofSymbols, ofSymbol_of_other hother, *]
termination_by _ symbols => sizeOf symbols
decreasing_by
  · simp only [List.cons.sizeOf_spec]
    omega
  · obtain ⟨name, detail, kind, range, selectionRange, children⟩ := s
    simp
    omega

theorem append_assoc (a b c : Intake) : a ++ b ++ c = a ++ (b ++ c) := by
  show Intake.mk _ _ = Intake.mk _ _
  simp only [classes_append, failures_append, List.append_assoc]

/-- The intake of some symbols and others behind them. -/
theorem ofSymbols_append (a b : List DocumentSymbol) :
    ofSymbols source ignored enclosing (a ++ b)
      = ofSymbols source ignored enclosing a ++ ofSymbols source ignored enclosing b := by
  induction a with
  | nil => rfl
  | cons s a ih =>
    rw [List.cons_append, ofSymbols, ofSymbols, ih, append_assoc]

/-- **The intake loses nothing and keeps failures apart.** The symbols of a document add
up. Of the class-like symbols that namespaces alone stand around, each adds exactly what
`ClassRead` says, one class or one failure of its own; and what the children of all of
them come to is one function, the one that `MemberRead` determines, so that no member's
result depends on the symbols beside it. -/
theorem intake_loses_nothing (text : String) (ignored : List String) :
    (∀ a b : List DocumentSymbol,
      (intake text (a ++ b) ignored).classes
          = (intake text a ignored).classes ++ (intake text b ignored).classes
        ∧ (intake text (a ++ b) ignored).failures
          = (intake text a ignored).failures ++ (intake text b ignored).failures)
    ∧ ∃ outcome : DocumentSymbol → Contribution,
        (∀ s o, MemberRead ⟨text.toList⟩ ignored s o ↔ o = outcome s)
        ∧ ∀ symbols, ∃ reached parts,
          (∀ other, Reached none symbols other ↔ other = reached)
          ∧ (∀ other, List.Forall₂ (fun place part =>
                ClassRead ⟨text.toList⟩ outcome place.1 place.2 part) reached other
              ↔ other = parts)
          ∧ (intake text symbols ignored).classes = parts.flatMap Intake.classes
          ∧ (intake text symbols ignored).failures = parts.flatMap Intake.failures := by
  refine ⟨fun a b => ?_, contribution ⟨text.toList⟩ ignored, fun s o => memberRead_iff,
    fun symbols => ?_⟩
  · simp only [intake, ofSymbols_append, classes_append, failures_append, and_self]
  · obtain ⟨reached, hreached, hclasses, hfailures⟩ :=
      exists_reached ⟨text.toList⟩ ignored none symbols
    refine ⟨reached, reached.map fun p => ofClassSymbol ⟨text.toList⟩ ignored p.1 p.2,
      fun other => ⟨hreached.unique, fun h => h ▸ hreached⟩, fun other => ?_, ?_, ?_⟩
    · simp only [classRead_iff.trans eq_comm]
      rw [eq_comm, ← List.forall₂_eq_eq_eq, List.forall₂_map_left_iff]
    · rw [List.flatMap_map]
      exact hclasses
    · rw [List.flatMap_map]
      exact hfailures

end Intake

end TestScaffold
