import TestScaffold.Model.Class
import TestScaffold.Proofs.Declaration.DisplayName
import TestScaffold.Proofs.Declaration.Modifiers
import TestScaffold.Proofs.TypeExpr.Identifier
/-!
# Reading classes back

A class-like symbol reaches the reader as the text in front of its name and a
display signature: the qualified name, generic parameters, perhaps the parameter
list of a primary constructor, a base list behind a colon and clauses.
`Class.leading` and `Class.signature` write these two texts, and
`ofDefinition_extract` says that the class, and the namespace it is qualified with,
are read back from them.

Three cuts have to fall right. The qualification ends at the last top-level full
stop of the name, the primary constructor begins at the first parenthesis outside
brackets (`cutAtOpen?_signature`), and the base list begins at the first top-level
colon unless a clause begins in front of it (`cutBaseList_of_nil`): a clause has a
colon of its own.
-/

namespace TestScaffold

open Scan Text Declaration

/-! ## The words of a structure kind -/

namespace StructureKind

/-- **The words of a structure kind are read back** when none of the words that
could lengthen them follows. -/
theorem leading?_text (kind : StructureKind) {s : List Char}
    (hstruct : ¬ "struct ".toList <+: s) (hclass : ¬ "class ".toList <+: s) :
    leading? (kind.text.toList ++ ' ' :: s) = some (kind, Text.trim s) := by
  cases kind with
  | record =>
    have hbehind : ∀ w : List Char, stripStart? ("record ".toList ++ w)
        (record.text.toList ++ ' ' :: s) = stripStart? w s := fun w => rfl
    have hrecordStruct : stripStart? (recordStruct.text.toList ++ [' '])
        (record.text.toList ++ ' ' :: s) = none :=
      (hbehind "struct ".toList).trans (stripStart?_eq_none_iff.mpr hstruct)
    have hrecordClass : stripStart? (recordClass.text.toList ++ [' '])
        (record.text.toList ++ ' ' :: s) = none :=
      (hbehind "class ".toList).trans (stripStart?_eq_none_iff.mpr hclass)
    unfold leading? all
    simp only [List.findSome?_cons, hrecordStruct, hrecordClass]
    rfl
  | _ => rfl

/-- No modifier leads the words of a structure kind. -/
theorem leadingWord?_text (kind : StructureKind) (s : List Char) :
    leadingWord? symbolKeywords (kind.text.toList ++ ' ' :: s) = none := by
  cases kind <;> rfl

theorem written_text (kind : StructureKind) : Written kind.text.toList := by
  have hwords : ∀ kind ∈ all, ∃ ws, ws ≠ [] ∧ kind.text.toList = List.intercalate [' '] ws
      ∧ ∀ w ∈ ws, w ≠ [] ∧ ∀ c ∈ w, isBlank c = false ∧ c ≠ '(' ∧ c ≠ '[' := by
    intro kind _
    refine ⟨runs kind.text.toList, ?_⟩
    cases kind <;> decide
  obtain ⟨ws, hne, htext, hws⟩ := hwords kind (by cases kind <;> decide)
  rw [htext]
  exact .intercalate hne fun w hw => .of_solid (hws w hw).1 (hws w hw).2

theorem slash_notMem_text (kind : StructureKind) : '/' ∉ kind.text.toList := by
  cases kind <;> decide

theorem beginsPlainly_text (kind : StructureKind) : BeginsPlainly kind.text.toList := by
  cases kind <;> exact ⟨_, _, rfl, by decide, by decide, by decide⟩

end StructureKind

/-! ## Simple classes -/

/-- An identifier may be qualified and may qualify. -/
theorem IsIdentifier.isNamePart {name : String} (h : IsIdentifier name) :
    IsNamePart name.toList where
  ne := h.ne
  plain c hc := by
    obtain ⟨hbracket, hquote, -⟩ :=
      isTypeMark_eq_false_iff.mp (h.isTypeIdentifier.isTypeName.2 c hc)
    exact ⟨hbracket, hquote, h.isTypeIdentifier.isBlank_eq_false c hc,
      ne_of_isWordChar (h.chars c hc) (by decide), ne_of_isWordChar (h.chars c hc) (by decide)⟩

namespace Class

/-- **A base class**: nothing but a name and generic arguments. -/
structure IsBase (b : Class) : Prop where
  /-- The name is the name of a type. -/
  name : IsTypeIdentifier b.name
  /-- The generic arguments are canonical over identifiers. -/
  generics : ∀ g ∈ b.generics, g.Canonical IsTypeIdentifier
  /-- Nothing else is known. -/
  eq : b = { name := b.name, generics := b.generics }

/-- **A simple clause**: a tidy text without parentheses and quotes in which the word
in front of clauses does not stand. -/
structure IsSimpleClause (k : String) : Prop where
  /-- It holds something. -/
  ne : k.toList ≠ []
  /-- It is trimmed, with single spaces between its words. -/
  normalize_eq : normalize k.toList = k.toList
  /-- It holds no parentheses and no quotes. -/
  chars : ∀ c ∈ k.toList, c ≠ '(' ∧ c ≠ ')' ∧ isQuote c = false
  /-- The word in front of clauses is none of its words. -/
  notMem : whereChars ∉ words k.toList

instance : DecidablePred IsSimpleClause := fun k =>
  decidable_of_iff (k.toList ≠ [] ∧ normalize k.toList = k.toList
      ∧ (∀ c ∈ k.toList, c ≠ '(' ∧ c ≠ ')' ∧ isQuote c = false) ∧ whereChars ∉ words k.toList)
    ⟨fun h => ⟨h.1, h.2.1, h.2.2.1, h.2.2.2⟩,
      fun h => ⟨h.ne, h.normalize_eq, h.chars, h.notMem⟩⟩

/-- A simple clause is tidy. -/
theorem IsSimpleClause.tidy {k : String} (h : IsSimpleClause k) : Tidy k.toList :=
  tidy_iff_normalize_eq.mpr h.normalize_eq

theorem IsSimpleClause.isClause {k : String} (h : IsSimpleClause k) : IsClause k where
  ne_nil := h.ne
  trim_eq := h.tidy.trim_eq
  notMem := by
    rw [runs, ← h.tidy.words_eq h.ne]
    exact h.notMem

/-- **A simple class**: a header over identifiers, without members and attributes. -/
structure Simple (c : Class) : Prop where
  /-- The name is an identifier. -/
  name : IsIdentifier c.name
  /-- The name does not read as part of the structure kind. -/
  name_ne : c.name ≠ "class" ∧ c.name ≠ "struct"
  /-- The generic parameters are canonical over identifiers. -/
  generics : ∀ g ∈ c.generics, g.Canonical IsTypeIdentifier
  /-- The keywords, if any, are modifiers. -/
  keywords : AreModifiers symbolKeywords c.keywords
  /-- The base types are known by name and generic arguments. -/
  implements : ∀ b ∈ c.implements, b.IsBase
  /-- The clauses, if any, are simple. -/
  constraints : ∀ ks ∈ c.constraints, ks ≠ [] ∧ ∀ k ∈ ks, IsSimpleClause k
  /-- There are no attributes. -/
  attributes : c.attributes = none
  /-- The namespace is for the caller to fill in. -/
  containingNamespace : c.containingNamespace = none
  /-- So are the usings. -/
  usings : c.usings = []
  /-- There are no members. -/
  members : c.constructors = [] ∧ c.methods = []

/-- The text in front of the name: the modifiers and the structure kind, with a space
behind. -/
def leading (c : Class) : List Char :=
  List.intercalate [' '] ((c.keywords.getD []).map String.toList ++ [c.structureKind.text.toList])
    ++ [' ']

/-- The base list with the colon in front of it, when there is one. -/
def baseChars (c : Class) : List Char :=
  if c.implements = [] then [] else " : ".toList ++ commaJoin (c.implements.map chars)

/-- The namespaces a name is qualified with, with a full stop behind each. -/
def pathChars (path : List String) : List Char :=
  path.flatMap fun n => n.toList ++ ['.']

/-- The parameter list of a primary constructor, when there is one. -/
def primaryChars : Option (List Char) → List Char
  | some parameters => '(' :: (parameters ++ [')'])
  | none => []

/-- **The display signature** with a qualification and a primary constructor. -/
def signature (c : Class) (path : List String) (primary : Option (List Char)) : List Char :=
  pathChars path ++ (c.chars ++ (primaryChars primary
    ++ (baseChars c ++ clauseChars (c.constraints.getD []))))

/-! ## Cutting at the colon -/

/-- A colon in front of the first clause begins the base list. -/
theorem cutBaseList_eq_some {s before after : List Char}
    (hcut : cutFirst? ':' s = some (before, after))
    (hwhere : ∀ head tail, cutAt? whereWord s = some (head, tail) →
      before.length < head.length) :
    cutBaseList s = (Text.trim before, some (Text.trim after)) := by
  unfold cutBaseList
  dsimp only
  rw [hcut]
  cases hclause : cutAt? whereWord s with
  | none => rfl
  | some clause =>
    dsimp only
    rw [if_pos (hwhere clause.1 clause.2 hclause)]

/-- No colon, or none in front of the first clause: there is no base list. -/
theorem cutBaseList_eq_none {s : List Char}
    (h : ∀ before after, cutFirst? ':' s = some (before, after) →
      ∃ head tail, cutAt? whereWord s = some (head, tail) ∧ head.length ≤ before.length) :
    cutBaseList s = (Text.trim s, none) := by
  unfold cutBaseList
  dsimp only
  cases hcut : cutFirst? ':' s with
  | none => rfl
  | some cut =>
    obtain ⟨head, tail, hclause, hlength⟩ := h cut.1 cut.2 hcut
    rw [hclause]
    dsimp only
    rw [if_neg (Nat.not_lt.mpr hlength)]

/-! ## Names and base lists -/

section Names

variable {b : Class}

theorem chars_eq_chars (b : Class) :
    b.chars = TypeExpr.chars ⟨b.name, b.generics, [], false, []⟩ :=
  TypeExpr.genericChars_eq_chars b.name b.generics

variable (hname : IsTypeIdentifier b.name)
  (hgenerics : ∀ g ∈ b.generics, g.Canonical IsTypeIdentifier)
include hname hgenerics

/-- The name of a class with its generic parameters is a type. -/
theorem canonical_name :
    TypeExpr.Canonical IsTypeIdentifier ⟨b.name, b.generics, [], false, []⟩ :=
  TypeExpr.canonical_of_generics hname hgenerics

theorem typeText_chars : TypeText b.chars := by
  rw [chars_eq_chars]
  exact (canonical_name hname hgenerics).typeText

/-- A class is read back from its name and generic parameters. -/
theorem ofChars_chars : TypeExpr.ofChars b.chars = ⟨b.name, b.generics, [], false, []⟩ := by
  rw [chars_eq_chars]
  exact (canonical_name hname hgenerics).ofChars_chars

/-- No top-level delimiter stands in the name and the generic parameters. -/
theorem quiet_chars {d : Char} (hd : d = ' ' ∨ d = ',' ∨ d = '=' ∨ d = ':') :
    Quiet d b.chars := by
  rw [chars_eq_chars]
  exact (canonical_name hname hgenerics).quiet_of_mark hd

/-- The search for a parenthesis outside brackets passes the name and the generic
parameters. -/
theorem skipped_chars : Skipped '(' b.chars := by
  rw [chars_eq_chars]
  exact (canonical_name hname hgenerics).skipped_chars rfl

end Names

namespace Simple

variable {c : Class}

/-- The base list without the colon is a list of types. -/
theorem typeText_bases (h : Simple c) (hne : c.implements ≠ []) :
    TypeText (commaJoin (c.implements.map chars)) :=
  intercalate_of_join (by simpa using hne)
    (List.forall_mem_map.mpr fun b hb =>
      typeText_chars (h.implements b hb).name (h.implements b hb).generics)
    fun _ _ ha hb => ha.comma hb

/-- **The base list is read back.** -/
theorem baseClasses_eq (h : Simple c) (hne : c.implements ≠ []) :
    baseClasses (commaJoin (c.implements.map chars)) = c.implements := by
  have hbases : ∀ x ∈ c.implements.map chars, Segment ',' x :=
    List.forall_mem_map.mpr fun b hb =>
      (quiet_chars (h.implements b hb).name (h.implements b hb).generics (.inr (.inl rfl))).segment
  have hread : ∀ b ∈ c.implements,
      ((fun base => ofType (TypeExpr.ofChars base)) ∘ Text.trim ∘ chars) b = id b := by
    intro b hb
    obtain ⟨hname, hgenerics, heq⟩ := h.implements b hb
    rw [Function.comp_apply, Function.comp_apply,
      (typeText_chars hname hgenerics).written.tidy.trim_eq, ofChars_chars hname hgenerics]
    exact heq.symm
  have hnonempty := (h.typeText_bases hne).written.ne_nil
  rw [baseClasses, if_neg (by simpa using hnonempty), commaJoin,
    split_intercalate_space (by decide) (by decide) (by simpa using hne) hbases, List.map_map,
    List.map_map]
  exact (List.map_congr_left hread).trans (List.map_id _)

/-! ## The header -/

/-- The header in front of the clauses. -/
def headerChars (c : Class) : List Char :=
  c.chars ++ baseChars c

theorem written_chars (h : Simple c) : Written c.chars :=
  (typeText_chars h.name.isTypeIdentifier h.generics).written

theorem header_eq (hne : c.implements ≠ []) :
    headerChars c = c.chars ++ ' ' :: ([':'] ++ ' ' :: commaJoin (c.implements.map chars)) := by
  rw [headerChars, baseChars, if_neg hne]
  rfl

theorem written_header (h : Simple c) : Written (headerChars c) := by
  by_cases hne : c.implements = []
  · rw [headerChars, baseChars, if_pos hne, List.append_nil]
    exact h.written_chars
  · have hcolon : Written [':'] := .of_solid (by simp) (by decide)
    rw [header_eq hne]
    exact h.written_chars.join (hcolon.join (h.typeText_bases hne).written)

/-- No run of the header is the word in front of clauses. -/
theorem where_notMem_header (h : Simple c) : whereChars ∉ runs (headerChars c) := by
  have hname := (typeText_chars h.name.isTypeIdentifier h.generics).where_notMem
  by_cases hne : c.implements = []
  · rwa [headerChars, baseChars, if_pos hne, List.append_nil]
  · rw [header_eq hne]
    exact notMem_runs_join hname
      (notMem_runs_join (by decide) (h.typeText_bases hne).where_notMem)

/-- No parenthesis outside brackets stands in the header. -/
theorem skipped_header (h : Simple c) : Skipped '(' (headerChars c) := by
  have hname := skipped_chars h.name.isTypeIdentifier h.generics
  by_cases hne : c.implements = []
  · rwa [headerChars, baseChars, if_pos hne, List.append_nil]
  · have hplain : ∀ s : List Char, (∀ c ∈ s, isBracket c = false) → Skipped '(' s := fun _ hs =>
      .of_plain (by decide) hs
    have hbases : Skipped '(' (commaJoin (c.implements.map chars)) :=
      intercalate_of_join (by simpa using hne)
        (List.forall_mem_map.mpr fun b hb =>
          skipped_chars (h.implements b hb).name (h.implements b hb).generics)
        fun _ _ ha hb => ha.append ((hplain _ (by decide)).append hb)
    rw [headerChars, baseChars, if_neg hne]
    exact hname.append ((hplain " : ".toList (by decide)).append hbases)

/-! ## The header with its clauses -/

theorem simpleClause (h : Simple c) : ∀ k ∈ c.constraints.getD [], IsSimpleClause k := by
  intro k hk
  cases hcs : c.constraints with
  | none =>
    rw [hcs] at hk
    exact absurd hk (by simp)
  | some ks =>
    rw [hcs] at hk
    exact (h.constraints ks hcs).2 k hk

theorem paren_notMem_clauses (h : Simple c) : '(' ∉ clauseChars (c.constraints.getD []) := by
  intro hmem
  obtain ⟨k, hk, hparen⟩ := List.mem_flatMap.mp hmem
  rcases List.mem_append.mp hparen with hparen | hparen
  · exact absurd hparen (by decide)
  · exact ((h.simpleClause k hk).chars _ hparen).1 rfl

theorem tidy_clauses (h : Simple c) :
    ∀ k ∈ c.constraints.getD [], Tidy k.toList ∧ k.toList ≠ [] :=
  fun k hk => ⟨(h.simpleClause k hk).tidy, (h.simpleClause k hk).ne⟩

/-- The header with its clauses: the declaration without what stands in front of the
name. -/
def declaredChars (c : Class) : List Char :=
  headerChars c ++ clauseChars (c.constraints.getD [])

theorem tidy_declared (h : Simple c) : Tidy (declaredChars c) :=
  tidy_append_clauseChars h.tidy_clauses h.written_header.tidy h.written_header.ne_nil

theorem declared_ne_nil (h : Simple c) : declaredChars c ≠ [] := by
  simp [declaredChars, h.written_header.ne_nil]

/-- Where the first clause begins, if there is one. -/
theorem cutAt?_declared (h : Simple c) :
    (cutAt? whereWord (declaredChars c) = none ∧ declaredChars c = headerChars c)
      ∨ ∃ tail, cutAt? whereWord (declaredChars c) = some (headerChars c, tail) := by
  rw [declaredChars, whereWord_eq]
  cases c.constraints.getD [] with
  | nil =>
    rw [clauseChars_nil, List.append_nil]
    exact .inl ⟨cutAt?_fenced_eq_none space_notMem_whereChars
      (notMem_runs_of_dropLast h.where_notMem_header), rfl⟩
  | cons k ks =>
    refine .inr ⟨k.toList ++ clauseChars ks, ?_⟩
    rw [clauseChars_cons]
    exact cutAt?_fenced space_notMem_whereChars h.where_notMem_header _

theorem segment_chars (h : Simple c) : Segment ':' c.chars :=
  (quiet_chars h.name.isTypeIdentifier h.generics (.inr (.inr (.inr rfl)))).segment

theorem headerChars_of_nil (hnil : c.implements = []) : headerChars c = c.chars := by
  rw [headerChars, baseChars, if_pos hnil, List.append_nil]

/-- **Without a base list nothing is cut**: a colon inside a clause stands behind the
word in front of it. -/
theorem cutBaseList_of_nil (h : Simple c) (hnil : c.implements = []) :
    cutBaseList (declaredChars c) = (declaredChars c, none) := by
  rw [cutBaseList_eq_none, h.tidy_declared.trim_eq]
  intro before after hcut
  have hheader := headerChars_of_nil hnil
  rcases h.cutAt?_declared with ⟨-, hnone⟩ | ⟨tail, hsome⟩
  · rw [hnone, hheader, cutFirst?_segment h.segment_chars] at hcut
    exact absurd hcut (by simp)
  · refine ⟨_, tail, hsome, ?_⟩
    rw [declaredChars, hheader] at hcut
    rw [hheader]
    exact length_le_of_cutFirst? h.segment_chars hcut

/-- **A base list is cut off** with the clauses behind it. -/
theorem cutBaseList_of_ne_nil (h : Simple c) (hne : c.implements ≠ []) :
    cutBaseList (declaredChars c)
      = (c.chars, some (commaJoin (c.implements.map chars)
        ++ clauseChars (c.constraints.getD []))) := by
  have hbases := (h.typeText_bases hne).written
  have htail : Tidy (commaJoin (c.implements.map chars)
      ++ clauseChars (c.constraints.getD [])) :=
    tidy_append_clauseChars h.tidy_clauses hbases.tidy hbases.ne_nil
  have hshape : declaredChars c = (c.chars ++ [' ']) ++ ':' :: ([' ']
      ++ (commaJoin (c.implements.map chars) ++ clauseChars (c.constraints.getD []))) := by
    rw [declaredChars, header_eq hne]
    simp
  have hcut := cutFirst?_join (by decide)
    (h.segment_chars.join (x := ' ') (by decide) (by decide) .nil)
    ([' '] ++ (commaJoin (c.implements.map chars) ++ clauseChars (c.constraints.getD [])))
  rw [← hshape] at hcut
  have hbefore : Text.trim (c.chars ++ [' ']) = c.chars := by
    rw [trim_append_blank rfl, h.written_chars.tidy.trim_eq]
  have hearlier : (c.chars ++ [' ']).length < (headerChars c).length := by
    rw [header_eq hne]
    simp
  rw [cutBaseList_eq_some hcut, hbefore, trim_blank_append rfl, htail.trim_eq]
  intro head tail hwhere
  rcases h.cutAt?_declared with ⟨hnone, -⟩ | ⟨tail', hsome⟩
  · rw [hnone] at hwhere
    exact absurd hwhere (by simp)
  · rw [hsome] at hwhere
    obtain ⟨rfl, -⟩ := Prod.mk.inj (Option.some.inj hwhere)
    exact hearlier

/-- **The clauses are peeled off** the text in front of them. -/
theorem peelConstraints_eq (h : Simple c) {s : List Char} (hs : whereChars ∉ runs s)
    (htrim : Text.trim s = s) :
    peelConstraints (s ++ clauseChars (c.constraints.getD [])) = ⟨s, c.constraints⟩ := by
  cases hcs : c.constraints with
  | none =>
    rw [Option.getD_none, clauseChars_nil, List.append_nil,
      peelConstraints_eq_none (notMem_runs_of_dropLast hs), htrim]
  | some ks =>
    obtain ⟨hne, hks⟩ := h.constraints ks hcs
    rw [Option.getD_some, peelConstraints_clauses hs hne fun k hk => (hks k hk).isClause, htrim]

/-- Behind the name with its generic parameters stands a space, if anything. -/
theorem restChars_eq (c : Class) :
    baseChars c ++ clauseChars (c.constraints.getD []) = []
      ∨ ∃ s, baseChars c ++ clauseChars (c.constraints.getD []) = ' ' :: s := by
  unfold baseChars
  by_cases hne : c.implements = []
  · rw [if_pos hne, List.nil_append]
    cases c.constraints.getD [] with
    | nil => exact .inl rfl
    | cons k ks => exact .inr ⟨_, rfl⟩
  · rw [if_neg hne]
    exact .inr ⟨_, rfl⟩

theorem declared_eq (c : Class) :
    declaredChars c = c.chars ++ (baseChars c ++ clauseChars (c.constraints.getD [])) := by
  rw [declaredChars, headerChars, List.append_assoc]

/-- The declared name does not read as a word of a structure kind. -/
theorem not_prefix_declared (h : Simple c) {w : String} (hw : IsTypeIdentifier w)
    (hne : c.name ≠ w) : ¬ w.toList ++ [' '] <+: declaredChars c := by
  have hplain : ∀ x ∈ w.toList, isBracket x = false := fun x hx =>
    (isTypeMark_eq_false_iff.mp (hw.isTypeName.2 x hx)).1
  have hchars : c.chars ≠ w.toList := by
    intro heq
    have hname := ofChars_chars h.name.isTypeIdentifier h.generics
    have hcanonical : TypeExpr.Canonical IsTypeIdentifier ⟨w, [], [], false, []⟩ := .named hw
    have hword := hcanonical.ofChars_chars
    rw [TypeExpr.chars_named, show TypeExpr.markChars false [] = [] from rfl, List.append_nil,
      ← heq, hname] at hword
    exact hne (congrArg TypeExpr.name hword)
  rw [declared_eq]
  exact not_prefix_of_quiet hw.space_notMem hplain
    (quiet_chars h.name.isTypeIdentifier h.generics (.inl rfl)) hchars (restChars_eq c)

/-- The structure kind is read off the text behind the modifiers. -/
theorem leading?_declared (h : Simple c) :
    StructureKind.leading? (c.structureKind.text.toList ++ ' ' :: declaredChars c)
      = some (c.structureKind, declaredChars c) := by
  rw [StructureKind.leading?_text, h.tidy_declared.trim_eq]
  · exact h.not_prefix_declared ⟨by decide, by decide, by decide +kernel⟩ h.name_ne.2
  · exact h.not_prefix_declared ⟨by decide, by decide, by decide +kernel⟩ h.name_ne.1

/-- A simple class is no more than its header. -/
theorem eq_header (h : Simple c) :
    ({ name := c.name, keywords := c.keywords, generics := c.generics
       implements := c.implements, constraints := c.constraints
       attributes := none, structureKind := c.structureKind } : Class) = c := by
  obtain ⟨-, -, -, -, -, -, h₁, h₂, h₃, h₄, h₅⟩ := h
  obtain ⟨name, space, keywords, generics, implements, constraints, attributes, constructors,
    methods, usings, kind⟩ := c
  dsimp only at h₁ h₂ h₃ h₄ h₅
  rw [h₁, h₂, h₃, h₄, h₅]

/-- **The declaration of a class is read back.** -/
theorem ofDefinition_eq (h : Simple c) :
    ofDefinition (wordChars (c.keywords.getD [])
      ++ (c.structureKind.text.toList ++ ' ' :: declaredChars c)) = .ok c := by
  have htidy := c.structureKind.written_text.tidy.join h.tidy_declared
    c.structureKind.written_text.ne_nil h.declared_ne_nil
  obtain ⟨hattributes, hkeywords⟩ := peel_modifiers h.keywords htidy.trim_eq
    (c.structureKind.beginsPlainly_text.append _) (c.structureKind.leadingWord?_text _)
  have hname := ofChars_chars h.name.isTypeIdentifier h.generics
  unfold ofDefinition
  dsimp only
  rw [hattributes]
  dsimp only
  rw [hkeywords]
  dsimp only
  rw [h.leading?_declared]
  dsimp only
  -- the clauses stand behind the base list, or else behind the name
  by_cases hnil : c.implements = []
  · have hwhere := (typeText_chars h.name.isTypeIdentifier h.generics).where_notMem
    have hpeel := h.peelConstraints_eq hwhere h.written_chars.tidy.trim_eq
    rw [h.cutBaseList_of_nil hnil]
    dsimp only
    rw [declaredChars, headerChars_of_nil hnil, hpeel]
    dsimp only
    rw [hname, show baseClasses [] = [] from rfl, ← hnil]
    exact congrArg Except.ok h.eq_header
  · have hbases := h.typeText_bases hnil
    rw [h.cutBaseList_of_ne_nil hnil]
    dsimp only
    rw [h.peelConstraints_eq hbases.where_notMem hbases.written.tidy.trim_eq]
    dsimp only
    rw [hname, h.baseClasses_eq hnil]
    exact congrArg Except.ok h.eq_header

/-! ## The signature -/

/-- Behind the name stands an opening bracket or a space, if anything. -/
theorem signature_eq (c : Class) (primary : Option (List Char)) :
    ∃ s, c.signature [] primary = c.name.toList ++ s
      ∧ ∀ x ∈ s.head?, x = '<' ∨ x = '(' ∨ x = ' ' ∨ x = ':' := by
  unfold signature chars TypeExpr.genericChars
  by_cases hne : c.generics = []
  · rw [hne]
    refine ⟨primaryChars primary ++ (baseChars c ++ clauseChars (c.constraints.getD [])),
      by simp [pathChars], ?_⟩
    cases primary with
    | some parameters =>
      intro x hx
      exact .inr (.inl (by simpa [primaryChars, eq_comm] using hx))
    | none =>
      intro x hx
      rw [primaryChars, List.nil_append] at hx
      rcases restChars_eq c with hnil | ⟨s, hs⟩
      · rw [hnil] at hx
        exact absurd hx (by simp)
      · rw [hs] at hx
        exact .inr (.inr (.inl (by simpa [eq_comm] using hx)))
  · rw [if_neg (by simpa using hne)]
    refine ⟨'<' :: (TypeExpr.listChars c.generics ++ ['>'] ++ (primaryChars primary
      ++ (baseChars c ++ clauseChars (c.constraints.getD [])))), by simp [pathChars],
      fun x hx => ?_⟩
    exact .inl (by simpa [eq_comm] using hx)

/-- The signature is the qualified name with what stands behind it. -/
theorem exists_signature_eq (c : Class) (path : List String) (primary : Option (List Char)) :
    ∃ s, c.signature [] primary = c.name.toList ++ s
      ∧ c.signature path primary = qualifiedName (path.map String.toList) c.name.toList ++ s
      ∧ ∀ x ∈ s.head?, x = '<' ∨ x = '(' ∨ x = ' ' ∨ x = ':' := by
  obtain ⟨s, hs, hhead⟩ := signature_eq c primary
  refine ⟨s, hs, ?_, hhead⟩
  rw [qualifiedName_eq, List.flatMap_map, List.append_assoc, ← hs]
  rfl

/-- The last character of a signature is not blank. -/
theorem getLast?_signature (h : Simple c) (path : List String) (primary : Option (List Char)) :
    ∀ x ∈ (c.signature path primary).getLast?, isBlank x = false := by
  have hdeclared := (trim_eq_self_iff.mp h.tidy_declared.trim_eq).2
  rw [declared_eq] at hdeclared
  unfold signature
  by_cases hrest : baseChars c ++ clauseChars (c.constraints.getD []) = []
  · rw [hrest, List.append_nil] at hdeclared ⊢
    cases primary with
    | none =>
      rw [primaryChars, List.append_nil, List.getLast?_append_of_ne_nil _ h.written_chars.ne_nil]
      exact hdeclared
    | some parameters =>
      rw [primaryChars, ← List.cons_append, ← List.append_assoc, ← List.append_assoc,
        List.getLast?_concat]
      simp only [Option.mem_def, Option.some.injEq]
      rintro x rfl
      decide
  · rw [List.getLast?_append_of_ne_nil _ hrest] at hdeclared
    rwa [← List.append_assoc, ← List.append_assoc, List.getLast?_append_of_ne_nil _ hrest]

/-- The primary constructor of an unqualified signature is found, if there is one. -/
theorem cutAtOpen?_signature (h : Simple c) (primary : Option (List Char)) :
    cutAtOpen? '(' (c.signature [] primary)
      = primary.map fun parameters => (c.chars,
          parameters ++ ')' :: (baseChars c ++ clauseChars (c.constraints.getD []))) := by
  have hsignature : c.signature [] primary = c.chars ++ (primaryChars primary
      ++ (baseChars c ++ clauseChars (c.constraints.getD []))) := rfl
  rw [hsignature]
  cases primary with
  | none =>
    rw [primaryChars, List.nil_append, ← declared_eq, declaredChars, h.skipped_header,
      cutAtOpen?, cutAtOpenFrom?_eq_none h.paren_notMem_clauses]
    rfl
  | some parameters =>
    have hskip := skipped_chars h.name.isTypeIdentifier h.generics
    rw [primaryChars, List.cons_append, hskip.cutAtOpen?_append]
    simp

section Signature

variable {path : List String} (hpath : ∀ n ∈ path, IsIdentifier n)
include hpath

theorem isNamePart_path : ∀ n ∈ path.map String.toList, IsNamePart n := by
  rw [List.forall_mem_map]
  exact fun n hn => (hpath n hn).isNamePart

/-- The signature is trimmed. -/
theorem trim_signature (h : Simple c) (primary : Option (List Char)) :
    Text.trim (c.signature path primary) = c.signature path primary := by
  refine trim_eq_self_iff.mpr ⟨fun x hx => ?_, h.getLast?_signature path primary⟩
  obtain ⟨s, -, hs, -⟩ := exists_signature_eq c path primary
  have hplain := plain_qualifiedName (isNamePart_path hpath) h.name.isNamePart
  have hne : qualifiedName (path.map String.toList) c.name.toList ≠ [] := by
    rw [qualifiedName_eq]
    simp [h.name.ne]
  rw [hs, List.head?_append_of_ne_nil _ hne] at hx
  exact (hplain x (List.mem_of_mem_head? hx)).2.2.1

/-- **The namespace of a class is read back** from its signature. -/
theorem qualifiedNamespace?_signature (h : Simple c) (primary : Option (List Char)) :
    qualifiedNamespace? (c.signature path primary)
      = if path = [] then none else some (List.intercalate ['.'] (path.map String.toList)) := by
  obtain ⟨s, -, hs, hhead⟩ := exists_signature_eq c path primary
  rw [qualifiedNamespace?, h.trim_signature hpath, hs,
    className_qualifiedName (isNamePart_path hpath) h.name.isNamePart hhead,
    cutLast?_qualifiedName (isNamePart_path hpath) h.name.isNamePart]
  simp only [List.map_eq_nil_iff]
  split <;> rfl

/-- The qualification is no part of the display name. -/
theorem classDisplayName_qualified (h : Simple c) (primary : Option (List Char)) :
    classDisplayName (c.signature path primary) = withoutGroup (c.signature [] primary) := by
  obtain ⟨s, hshort, hs, hhead⟩ := exists_signature_eq c path primary
  have hname : Text.trim c.name.toList = c.name.toList :=
    trim_eq_self_of_solid h.name.isTypeIdentifier.isBlank_eq_false
  have hnil : ∀ n ∈ ([] : List String), IsIdentifier n := fun _ hn => absurd hn List.not_mem_nil
  have htrim := h.trim_signature hnil primary
  rw [hs, classDisplayName_append (isNamePart_path hpath) h.name.isNamePart hhead,
    ← trim_append_of_trim h.name.ne hname, ← hshort, htrim]

/-- **The display name of a class** is its header with its clauses. -/
theorem classDisplayName_signature (h : Simple c) {primary : Option (List Char)}
    (hprimary : ∀ parameters ∈ primary, Nested parameters) :
    classDisplayName (c.signature path primary) = declaredChars c := by
  rw [h.classDisplayName_qualified hpath, withoutGroup, h.cutAtOpen?_signature]
  cases primary with
  | none => exact (declared_eq c).symm
  | some parameters =>
    dsimp only [Option.map_some]
    rw [cutAtClose?_nested (hprimary parameters rfl) rfl]
    dsimp only
    -- the parameter list leaves a space in front of the bases or at the very end
    have hnormal := h.tidy_declared.normalize_eq
    rw [declared_eq] at hnormal ⊢
    rcases restChars_eq c with hrest | ⟨s, hs⟩
    · rw [hrest, List.append_nil] at hnormal ⊢
      rw [normalize_append_space, hnormal]
    · rw [hs] at hnormal ⊢
      rw [normalize_append_blanks _ _ (by decide) (by decide), hnormal]

/-- **The declaration of a class** is its header behind the modifiers and the
structure kind. -/
theorem extract_eq (h : Simple c) {primary : Option (List Char)}
    (hprimary : ∀ parameters ∈ primary, Nested parameters) :
    extract c.leading (c.signature path primary) c.name.toList .classLike
      = ⟨wordChars (c.keywords.getD []) ++ (c.structureKind.text.toList ++ ' ' :: declaredChars c),
        none⟩ := by
  have hfront := h.keywords.written_append c.structureKind.written_text
  have hslash := h.keywords.slash_notMem_append c.structureKind.slash_notMem_text
  unfold extract
  dsimp only
  rw [h.classDisplayName_signature hpath hprimary, leading, intercalate_words,
    hfront.joinWords_clean hslash h.tidy_declared h.declared_ne_nil, List.append_assoc]

end Signature

end Simple

/-- **Classes are read back** from the text in front of their name and their display
signature, whatever namespace qualifies the name and whatever parameters a primary
constructor has; the namespace is read back, too. -/
theorem ofDefinition_extract {c : Class} (hc : c.Simple) {path : List String}
    (hpath : ∀ n ∈ path, IsIdentifier n) {primary : Option (List Char)}
    (hprimary : ∀ parameters ∈ primary, Nested parameters) :
    ofDefinition (extract c.leading (c.signature path primary) c.name.toList .classLike).definition
        = .ok c
      ∧ qualifiedNamespace? (c.signature path primary)
        = if path = [] then none else some (List.intercalate ['.'] (path.map String.toList)) := by
  refine ⟨?_, hc.qualifiedNamespace?_signature hpath primary⟩
  rw [hc.extract_eq hpath hprimary]
  exact hc.ofDefinition_eq

/-- A generic record with a base list and clauses. -/
def cacheRecord : Class where
  name := "Cache"
  keywords := some ["public", "sealed"]
  generics := [.named "K", .named "V"]
  implements := [{ name := "Base", generics := [.tuple [.named "K", .named "V"]] },
    { name := "System.IDisposable" }]
  constraints := some ["K : notnull", "V : class?, IItem<V>"]
  structureKind := .record

/-- Colons, commas, parentheses and full stops in a signature are told apart. -/
theorem ofDefinition_extract_cacheRecord :
    cacheRecord.leading = "public sealed record ".toList
      ∧ cacheRecord.signature ["Demo", "Data"] (some "int size, (K, V) first".toList)
        = ("Demo.Data.Cache<K, V>(int size, (K, V) first) : Base<(K, V)>, System.IDisposable"
          ++ " where K : notnull where V : class?, IItem<V>").toList
      ∧ cacheRecord.Simple
      ∧ ofDefinition (extract cacheRecord.leading
          (cacheRecord.signature ["Demo", "Data"] (some "int size, (K, V) first".toList))
          cacheRecord.name.toList .classLike).definition = .ok cacheRecord
      ∧ qualifiedNamespace?
          (cacheRecord.signature ["Demo", "Data"] (some "int size, (K, V) first".toList))
        = some "Demo.Data".toList := by
  have hK : (TypeExpr.named "K").Canonical IsTypeIdentifier := .named (by decide +kernel)
  have hV : (TypeExpr.named "V").Canonical IsTypeIdentifier := .named (by decide +kernel)
  have hboth : ∀ t ∈ [TypeExpr.named "K", .named "V"], t.Canonical IsTypeIdentifier :=
    List.forall_mem_cons.mpr ⟨hK, List.forall_mem_singleton.mpr hV⟩
  have hpair : (TypeExpr.tuple [.named "K", .named "V"]).Canonical IsTypeIdentifier :=
    .tuple (List.cons_ne_nil _ _) hboth
  have hsimple : cacheRecord.Simple :=
    { name := by decide +kernel
      name_ne := by decide
      generics := hboth
      keywords := by decide
      implements := List.forall_mem_cons.mpr
        ⟨⟨by decide +kernel, List.forall_mem_singleton.mpr hpair, rfl⟩,
          List.forall_mem_singleton.mpr ⟨by decide +kernel, by simp, rfl⟩⟩
      constraints := by decide
      attributes := rfl
      containingNamespace := rfl
      usings := rfl
      members := ⟨rfl, rfl⟩ }
  have hpath : ∀ n ∈ ["Demo", "Data"], IsIdentifier n := by decide +kernel
  have hprimary : ∀ parameters ∈ some "int size, (K, V) first".toList, Nested parameters := by
    decide
  obtain ⟨hread, hnamespace⟩ := ofDefinition_extract hsimple hpath hprimary
  exact ⟨by decide, by decide +kernel, hsimple, hread, hnamespace⟩

end Class

end TestScaffold
