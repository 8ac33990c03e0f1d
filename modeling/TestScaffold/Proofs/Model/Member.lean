import TestScaffold.Model.Constructor
import TestScaffold.Model.Method
import TestScaffold.Proofs.Declaration.Extract
import TestScaffold.Proofs.Declaration.Modifiers
import TestScaffold.Proofs.Model.Parameter
import TestScaffold.Proofs.TypeExpr.Identifier
/-!
# Reading methods and constructors back

A method reaches the reader as two texts: what stands in front of its name, and a
display signature. `Method.leading` and `Method.signature` write these two texts,
`Constructor.leading` and `Constructor.signature` those of a constructor, and
`ofParts_extract` says that extracting the declaration and reading its two parts
gives the method or constructor back.

The conditions on names and types (`Parameter.Simple`, `Method.Simple`,
`Constructor.Simple`) make all the texts *written* (`Declaration.Written`). So the
leading text comes through cleaning unchanged, and the search for the name with a
parenthesis behind it does not stop in a tuple or in another name that ends alike.
-/

namespace TestScaffold

open Scan Text Declaration

/-! ## Simple parameters -/

namespace Parameter

/-- **A simple parameter**, as display signatures hold them: without attributes, over
identifiers, its default value a single word. -/
structure Simple (p : Parameter) : Prop where
  /-- The name is an identifier. -/
  name : IsIdentifier p.name
  /-- The type is canonical over identifiers. -/
  type : p.type.Canonical IsTypeIdentifier
  /-- The type does not read as a modifier. -/
  type_ne : ∀ w ∈ vocabulary, p.type.chars ≠ w.toList
  /-- The keywords, if any, are modifiers. -/
  keywords : AreModifiers vocabulary p.keywords
  /-- There are no attributes. -/
  attributes : p.attributes = none
  /-- The default value, if any, holds something, but no blank, bracket, quote or
  comma. -/
  defaultValue : ∀ v ∈ p.defaultValue, v.toList ≠ [] ∧ ∀ c ∈ v.toList,
    isBlank c = false ∧ isBracket c = false ∧ isQuote c = false ∧ c ≠ ','

theorem written_of_mem_vocabulary : ∀ w ∈ vocabulary, Written w.toList := by
  have hsolid : ∀ w ∈ vocabulary, w.toList ≠ []
      ∧ ∀ c ∈ w.toList, isBlank c = false ∧ c ≠ '(' ∧ c ≠ '[' := by decide
  exact fun w hw => .of_solid (hsolid w hw).1 (hsolid w hw).2

/-- No modifier is the word in front of clauses. -/
theorem where_notMem_vocabulary : ∀ w ∈ vocabulary, whereChars ∉ runs w.toList := by
  decide

namespace Simple

variable {p : Parameter}

/-- **Simple parameters are readable.** -/
theorem readable (h : Simple p) : Readable p where
  name_ne := h.name.ne
  name c hc := by
    have hmark := h.name.isTypeIdentifier.isTypeName.2 c hc
    obtain ⟨hbracket, hquote, hcomma, -⟩ := isTypeMark_eq_false_iff.mp hmark
    exact ⟨isBlank_of_isWordChar (h.name.chars c hc), hbracket, hquote, hcomma,
      ne_of_isWordChar (h.name.chars c hc) (by decide)⟩
  type := h.type.isTypeName
  typeName := by
    rcases h.type.tuple_or_name with ⟨htuple, -⟩ | ⟨-, hname, -⟩
    · exact .inl htuple
    · exact .inr ⟨hname.ne, fun c hc =>
        ⟨hname.isBlank_eq_false c hc, hname.ne_mark (by decide) (by decide) c hc⟩⟩
  type_ne := h.type_ne
  keywords := h.keywords
  attributes := by
    rw [h.attributes]
    simp
  defaultValue v hv := by
    obtain ⟨-, hchars⟩ := h.defaultValue v hv
    exact ⟨trim_eq_self_of_solid fun c hc => (hchars c hc).1,
      (Quiet.of_plain fun c hc => (hchars c hc).2).segment⟩

/-- The words a simple parameter is written in, but for its default value. -/
theorem forall_words (h : Simple p) {P : List Char → Prop}
    (hkeyword : ∀ w ∈ vocabulary, P w.toList) (htype : P p.type.chars) (hname : P p.name.toList)
    (hequals : P ['=']) (hdefault : ∀ v ∈ p.defaultValue, P v.toList) :
    ∀ w ∈ p.sourceWords, P w := by
  unfold sourceWords
  rw [h.attributes, Option.getD_none, List.map_nil, List.nil_append, List.forall_mem_append,
    List.forall_mem_map, List.forall_mem_cons, List.forall_mem_cons]
  refine ⟨fun w hw => hkeyword w (h.keywords.subset hw), htype, hname, ?_⟩
  unfold defaultWords
  cases hv : p.defaultValue with
  | none => simp
  | some v =>
    rw [List.forall_mem_cons, List.forall_mem_singleton]
    exact ⟨hequals, hdefault v hv⟩

theorem written_default (h : Simple p) : ∀ v ∈ p.defaultValue, Written v.toList := by
  intro v hv
  obtain ⟨hne, hchars⟩ := h.defaultValue v hv
  refine .of_solid hne fun c hc => ⟨(hchars c hc).1, ?_, ?_⟩
    <;> rintro rfl <;> exact absurd (hchars _ hc).2.1 (by decide)

/-- The source text of a simple parameter is written. -/
theorem written_source (h : Simple p) : Written p.source :=
  .intercalate (by simp [sourceWords])
    (h.forall_words written_of_mem_vocabulary h.type.written h.name.isTypeIdentifier.written
      (.of_solid (by simp) (by decide)) h.written_default)

/-- … and properly nested. -/
theorem nested_source (h : Simple p) : Nested p.source := by
  refine intercalate_of_join (by simp [sourceWords]) ?_
    fun a b ha hb => ha.join (x := ' ') (by decide) hb
  refine h.forall_words (fun w hw => .of_plain (plain_of_mem_vocabulary w hw))
    (h.type.quiet_of_mark (.inl rfl)).nested ?_ (.of_plain (by decide)) ?_
  · exact .of_plain fun c hc => (h.readable.name c hc).2.1
  · exact fun v hv => .of_plain fun c hc => ((h.defaultValue v hv).2 c hc).2.1

/-- **A simple parameter is printed as its source text.** -/
theorem chars_eq_source (h : Simple p) : p.chars = p.source := by
  have htrim : Text.trim p.source = p.source := h.written_source.tidy.trim_eq
  have hsource := source_eq p
  rw [h.attributes, Option.getD_none, groupChars_nil, List.nil_append] at hsource
  have hchars : p.chars = Text.trim (List.intercalate [' '] ((p.keywords.getD []).map String.toList)
      ++ [' '] ++ (p.typedChars ++ p.defaultChars)) := by
    unfold chars typedChars defaultChars keywordChars
    simp only [List.append_assoc, List.cons_append, List.nil_append]
    rfl
  rw [hchars]
  by_cases hks : p.keywords.getD [] = []
  · rw [hks] at hsource ⊢
    rw [hsource, wordChars_nil, List.nil_append] at htrim ⊢
    rw [List.map_nil, List.intercalate_nil, List.nil_append, trim_blank_append (by rfl), htrim]
  · rw [intercalate_append_space hks, ← hsource, htrim]

/-- Only the last run of a simple parameter may be the word in front of clauses. -/
theorem where_notMem (h : Simple p) : whereChars ∉ (runs p.source).dropLast := by
  have hkeywords : ∀ w ∈ (p.keywords.getD []).map String.toList, whereChars ∉ runs w :=
    List.forall_mem_map.mpr fun w hw => where_notMem_vocabulary w (h.keywords.subset hw)
  have htype := h.type.where_notMem
  have hname := h.name.isTypeIdentifier.where_notMem
  have hwords : p.sourceWords = (p.keywords.getD []).map String.toList
      ++ (p.type.chars :: p.name.toList :: p.defaultWords) := by
    rw [sourceWords, h.attributes]
    rfl
  unfold source
  rw [hwords, defaultWords]
  cases hv : p.defaultValue with
  | none =>
    rw [List.append_cons]
    refine notMem_dropLast_intercalate ?_ (notMem_runs_of_dropLast hname)
    rw [List.forall_mem_append, List.forall_mem_singleton]
    exact ⟨hkeywords, htype⟩
  | some v =>
    have hvalue : ' ' ∉ v.toList := fun hmem =>
      absurd ((h.defaultValue v hv).2 ' ' hmem).1 (by decide)
    have hshape : ∀ xs : List (List Char), xs ++ [p.type.chars, p.name.toList, ['='], v.toList]
        = (xs ++ [p.type.chars, p.name.toList, ['=']]) ++ [v.toList] := fun xs => by simp
    rw [hshape]
    refine notMem_dropLast_intercalate ?_ ?_
    · rw [List.forall_mem_append, List.forall_mem_cons, List.forall_mem_cons,
        List.forall_mem_singleton]
      exact ⟨hkeywords, htype, hname, by decide⟩
    · rw [runs_of_solid hvalue]
      simp

end Simple

section Lists

variable {ps : List Parameter}

/-- The text of a list of simple parameters is what they are read from. -/
theorem listChars_eq_listSource (h : ∀ p ∈ ps, Simple p) : listChars ps = listSource ps := by
  rw [listChars, listSource, List.map_congr_left fun p hp => (h p hp).chars_eq_source]

/-- A property of texts that commas keep holds of the text of a list. -/
theorem listChars_of_comma {P : List Char → Prop} (h : ∀ p ∈ ps, Simple p) (hne : ps ≠ [])
    (hP : ∀ p ∈ ps, P p.source) (hcomma : ∀ a b, P a → P b → P (a ++ ([',', ' '] ++ b))) :
    P (listChars ps) := by
  rw [listChars_eq_listSource h]
  exact intercalate_of_join (by simpa using hne) (List.forall_mem_map.mpr hP) hcomma

theorem written_listChars (h : ∀ p ∈ ps, Simple p) :
    listChars ps = [] ∨ Written (listChars ps) := by
  by_cases hne : ps = []
  · subst hne
    exact .inl rfl
  · exact .inr (listChars_of_comma h hne (fun p hp => (h p hp).written_source)
      fun _ _ ha hb => ha.comma hb)

theorem nested_listChars (h : ∀ p ∈ ps, Simple p) : Nested (listChars ps) := by
  by_cases hne : ps = []
  · subst hne
    exact .nil
  · exact listChars_of_comma h hne (fun p hp => (h p hp).nested_source)
      fun a b ha hb => ha.join (by decide) (.plain (by decide) hb)

theorem where_notMem_listChars (h : ∀ p ∈ ps, Simple p) :
    whereChars ∉ (runs (listChars ps)).dropLast := by
  by_cases hne : ps = []
  · subst hne
    decide
  · exact listChars_of_comma (P := fun s => whereChars ∉ (runs s).dropLast) h hne
      (fun p hp => (h p hp).where_notMem) fun _ _ ha hb => notMem_dropLast_comma (by decide) ha hb

theorem tidy_listChars (h : ∀ p ∈ ps, Simple p) : Tidy (listChars ps) := by
  rcases written_listChars h with hnil | hwritten
  · rw [hnil]
    exact .nil
  · exact hwritten.tidy

theorem listOfChars_listChars (h : ∀ p ∈ ps, Simple p) : listOfChars (listChars ps) = .ok ps := by
  rw [listChars_eq_listSource h]
  exact listOfChars_commaJoin (fun p hp => (h p hp).readable.segment_source)
    (fun p hp => (h p hp).readable.isBlankText_source)
    fun p hp => (h p hp).readable.ofChars_source

end Lists

end Parameter

/-! ## Signatures -/

/-- A name and a parameter list between parentheses. -/
def signatureChars (name : List Char) (parameters : List Parameter) : List Char :=
  name ++ '(' :: (Parameter.listChars parameters ++ [')'])

theorem tidy_signatureChars {name : List Char} (hname : Tidy name) {ps : List Parameter}
    (hps : ∀ p ∈ ps, p.Simple) : Tidy (signatureChars name ps) :=
  hname.append (.solid (by decide) ((Parameter.tidy_listChars hps).append (.of_solid (by decide))))

/-- A tidy text is a single line. -/
theorem newline_notMem_of_tidy {s : List Char} (h : Tidy s) : '\n' ∉ s := fun hmem =>
  absurd (h.eq_space '\n' hmem (by decide)) (by decide)

/-- An identifier does not stand for an unnamed constructor. -/
theorem IsIdentifier.ne_ctor {name : String} (h : IsIdentifier name) :
    name.toList ≠ ".ctor".toList := fun he =>
  ne_of_isWordChar (h.chars '.' (by rw [he]; decide)) (by decide) rfl

theorem IsTypeIdentifier.ne_bracket {name : String} (h : IsTypeIdentifier name) :
    ∀ c ∈ name.toList, c ≠ '<' ∧ c ≠ '>' ∧ c ≠ '(' ∧ c ≠ ')' := fun c hc =>
  ⟨h.ne_mark (by decide) (by decide) c hc, h.ne_mark (by decide) (by decide) c hc,
    h.ne_mark (by decide) (by decide) c hc, h.ne_mark (by decide) (by decide) c hc⟩

/-- An identifier ends with a character that is neither a blank nor a bracket. -/
theorem IsTypeIdentifier.exists_last {name : String} (h : IsTypeIdentifier name) :
    ∃ x, name.toList.getLast? = some x ∧ isBlank x = false
      ∧ x ≠ '<' ∧ x ≠ '>' ∧ x ≠ '(' ∧ x ≠ ')' :=
  have hmem := List.getLast_mem h.ne
  ⟨_, List.getLast?_eq_some_getLast h.ne, h.isBlank_eq_false _ hmem, h.ne_bracket _ hmem⟩

theorem ne_space_of_isBlank {x : Char} (hx : isBlank x = false) : x ≠ ' ' := by
  rintro rfl
  exact absurd hx (by decide)

/-! ## Methods -/

namespace Method

/-- The text in front of the name: the modifiers and the type of the result, with a
space behind. -/
def leading (m : Method) : List Char :=
  List.intercalate [' '] ((m.keywords.getD []).map String.toList ++ [m.returnType.chars]) ++ [' ']

/-- The display signature. -/
def signature (m : Method) : List Char :=
  signatureChars m.chars m.parameters

/-- **A simple method**: without attributes and clauses, over identifiers. -/
structure Simple (m : Method) : Prop where
  /-- The name is an identifier. -/
  name : IsIdentifier m.name
  /-- The keywords, if any, are modifiers. -/
  keywords : AreModifiers symbolKeywords m.keywords
  /-- There are no attributes. -/
  attributes : m.attributes = none
  /-- There are no clauses. -/
  constraints : m.constraints = none
  /-- The generic parameters are identifiers. -/
  generics : ∀ g ∈ m.generics, ∃ n, IsIdentifier n ∧ g = .named n
  /-- The parameters are simple. -/
  parameters : ∀ p ∈ m.parameters, p.Simple
  /-- The type of the result is canonical over identifiers. -/
  returnType : m.returnType.Canonical IsTypeIdentifier
  /-- The type of the result does not read as a modifier. -/
  returnType_ne : ∀ w ∈ symbolKeywords, m.returnType.chars ≠ w.toList

namespace Simple

variable {m : Method}

/-! ### The name with its generic parameters -/

/-- The generic parameters between angle brackets, when there are any. -/
def suffixChars (m : Method) : List Char :=
  if m.generics = [] then [] else '<' :: TypeExpr.listChars m.generics ++ ['>']

theorem chars_eq_append (m : Method) : m.chars = m.name.toList ++ suffixChars m := by
  unfold chars TypeExpr.genericChars suffixChars
  by_cases hne : m.generics = []
  · simp [hne]
  · simp [hne]

/-- The name with its generic parameters is a type. -/
theorem canonical_name (h : Simple m) :
    TypeExpr.Canonical IsTypeIdentifier ⟨m.name, m.generics, [], false, []⟩ := by
  refine TypeExpr.canonical_of_generics h.name.isTypeIdentifier fun g hg => ?_
  obtain ⟨n, hn, rfl⟩ := h.generics g hg
  exact .named hn.isTypeIdentifier

theorem chars_eq_chars (m : Method) :
    m.chars = TypeExpr.chars ⟨m.name, m.generics, [], false, []⟩ :=
  TypeExpr.genericChars_eq_chars m.name m.generics

theorem written_chars (h : Simple m) : Written m.chars := by
  rw [chars_eq_chars]
  exact h.canonical_name.written

/-- No parameter list begins in the name or its generic parameters. -/
theorem paren_notMem_chars (h : Simple m) : '(' ∉ m.chars := by
  have hname : ∀ {n : String}, IsIdentifier n → '(' ∉ n.toList := fun hn hmem =>
    (hn.isTypeIdentifier.ne_bracket _ hmem).2.2.1 rfl
  rw [chars_eq_append, List.mem_append, not_or]
  refine ⟨hname h.name, ?_⟩
  unfold suffixChars
  split
  · simp
  · next hne =>
    have hlist : '(' ∉ TypeExpr.listChars m.generics := by
      refine intercalate_of_join (P := fun s => '(' ∉ s) (by simpa using hne)
        (List.forall_mem_map.mpr fun g hg => ?_) fun a b ha hb => by simp [ha, hb]
      obtain ⟨n, hn, rfl⟩ := h.generics g hg
      rw [TypeExpr.named, TypeExpr.chars_named]
      simpa [TypeExpr.markChars] using hname hn
    simp [hlist]

/-- What the name with its generic parameters ends with. -/
theorem exists_last (h : Simple m) :
    ∃ x, m.chars.getLast? = some x ∧ x ≠ ' ' ∧ x ≠ '<' ∧ x ≠ '(' := by
  rw [chars_eq_append]
  unfold suffixChars
  split
  · obtain ⟨x, hx, hblank, hopen, -, hparen, -⟩ := h.name.isTypeIdentifier.exists_last
    rw [List.append_nil]
    exact ⟨x, hx, ne_space_of_isBlank hblank, hopen, hparen⟩
  · refine ⟨'>', ?_, by decide, by decide, by decide⟩
    rw [← List.append_assoc, List.getLast?_concat]

/-- The suffix of the signature are the generic parameters. -/
theorem genericSuffix?_signature (h : Simple m) :
    (genericSuffix? m.signature).getD [] = suffixChars m := by
  have htrim := (tidy_signatureChars h.written_chars.tidy h.parameters).trim_eq
  have hparams := Parameter.written_listChars h.parameters
  unfold signature
  unfold signatureChars at htrim ⊢
  rw [chars_eq_append] at htrim ⊢
  unfold suffixChars at htrim ⊢
  by_cases hne : m.generics = []
  · rw [if_pos hne, List.append_nil] at htrim ⊢
    rw [genericSuffix?_eq_none h.name.isTypeIdentifier.ne_bracket htrim]
    rfl
  · rw [if_neg hne] at htrim ⊢
    have harguments : TypeText (TypeExpr.listChars m.generics) := by
      refine TypeExpr.typeText_listChars hne fun g hg => ?_
      obtain ⟨n, hn, rfl⟩ := h.generics g hg
      exact (TypeExpr.Canonical.named hn.isTypeIdentifier).typeText
    have hline : '\n' ∉ TypeExpr.listChars m.generics ++ Parameter.listChars m.parameters := by
      rw [List.mem_append, not_or]
      exact ⟨newline_notMem_of_tidy harguments.written.tidy,
        newline_notMem_of_tidy (Parameter.tidy_listChars h.parameters)⟩
    have hshape : m.name.toList ++ ('<' :: TypeExpr.listChars m.generics ++ ['>'])
          ++ '(' :: (Parameter.listChars m.parameters ++ [')'])
        = m.name.toList ++ '<' :: (TypeExpr.listChars m.generics ++ '>' :: '('
          :: (Parameter.listChars m.parameters ++ [')'])) := by simp
    rw [hshape] at htrim ⊢
    rw [genericSuffix?_eq_some h.name.isTypeIdentifier.ne_bracket h.name.ne
      harguments.written.ne_nil hparams hline htrim]
    rfl

/-- The list opens behind the name with its generic parameters. -/
theorem listOpening_signature (h : Simple m) :
    listOpening m.signature m.name.toList = m.chars ++ ['('] := by
  have hangle : '<' ∉ m.name.toList := fun hmem =>
    (h.name.isTypeIdentifier.ne_bracket _ hmem).1 rfl
  have hparen := h.paren_notMem_chars
  have htidy := h.written_chars.tidy
  rw [chars_eq_append] at hparen htidy ⊢
  exact listOpening_of_name h.name.ne h.name.ne_ctor hangle h.genericSuffix?_signature hparen htidy

/-! ### The declaration -/

/-- The modifiers and the type of the result. -/
def frontChars (m : Method) : List Char :=
  wordChars (m.keywords.getD []) ++ m.returnType.chars

theorem leading_eq (m : Method) : m.leading = frontChars m ++ [' '] := by
  rw [leading, intercalate_words, frontChars]

theorem written_front (h : Simple m) : Written (frontChars m) :=
  h.keywords.written_append h.returnType.written

theorem slash_notMem_front (h : Simple m) : '/' ∉ frontChars m :=
  h.keywords.slash_notMem_append (h.returnType.typeText.notMem (by decide) (by decide))

/-- **The declaration of a method** is cut in front of its parameter list. -/
theorem extract_eq (h : Simple m) :
    extract m.leading m.signature m.name.toList .method
      = ⟨frontChars m ++ ' ' :: m.chars, some (Parameter.listChars m.parameters)⟩ := by
  obtain ⟨x, hx, hxo⟩ := h.exists_last
  have htidy : Tidy m.signature := tidy_signatureChars h.written_chars.tidy h.parameters
  have hjoin : joinWords (clean m.leading) m.signature
      = (frontChars m ++ [' ']) ++ m.signature := by
    have hne : m.signature ≠ [] := by simp [signature, signatureChars]
    rw [leading_eq, h.written_front.joinWords_clean h.slash_notMem_front htidy hne,
      List.append_assoc, List.singleton_append]
  have hfront : Written ((frontChars m ++ [' ']) ++ m.chars) := by
    have := h.written_front.join h.written_chars
    simpa using this
  have hkind : Declaration.Kind.method ≠ .classLike := by decide
  have := Declaration.extract_eq hkind hjoin h.listOpening_signature
    hfront hx hxo (Parameter.nested_listChars h.parameters)
    (Parameter.tidy_listChars h.parameters).trim_eq
  simpa [signature, signatureChars] using this

/-! ### Reading the declaration -/

/-- The name and the generic parameters are read as a type. -/
theorem ofChars_chars (h : Simple m) :
    TypeExpr.ofChars m.chars = ⟨m.name, m.generics, [], false, []⟩ := by
  rw [chars_eq_chars]
  exact h.canonical_name.ofChars_chars

/-- **The type of the result and the name are split at the space between them.** -/
theorem split_typed (h : Simple m) :
    split ' ' (m.returnType.chars ++ ' ' :: m.chars) = [m.returnType.chars, m.chars] := by
  have hreturn : Segment ' ' m.returnType.chars := (h.returnType.quiet_of_mark (.inl rfl)).segment
  have hname : Segment ' ' m.chars := by
    rw [chars_eq_chars]
    exact (h.canonical_name.quiet_of_mark (.inl rfl)).segment
  rw [split_join (by decide) hreturn, split_segment hname, h.returnType.written.tidy.trim_eq,
    h.written_chars.tidy.trim_eq]

/-- No modifier leads the type of the result. -/
theorem leadingWord?_typed (h : Simple m) :
    leadingWord? symbolKeywords (m.returnType.chars ++ ' ' :: m.chars) = none :=
  leadingWord?_of_quiet isVocabulary_symbolKeywords
    (fun w hw => (plain_of_mem_symbolKeywords w hw).2) (h.returnType.quiet_of_mark (.inl rfl))
    h.returnType_ne m.chars

/-- **What a method is read as** from its declaration and the text behind it: the clauses
and the parameters are those of that text. -/
theorem ofParts_front (h : Simple m) (text : List Char) :
    ofParts (frontChars m ++ ' ' :: m.chars) (some text)
      = (Parameter.listOfChars (peelConstraints text).rest).map fun parameters =>
          { m with constraints := (peelConstraints text).found, parameters } := by
  have hrest : frontChars m ++ ' ' :: m.chars
      = wordChars (m.keywords.getD []) ++ (m.returnType.chars ++ ' ' :: m.chars) := by
    simp [frontChars]
  obtain ⟨hpeeled, hkeywords⟩ := peel_modifiers h.keywords
    (h.returnType.written.join h.written_chars).tidy.trim_eq
    (h.returnType.beginsPlainly.append _) h.leadingWord?_typed
  unfold ofParts
  rw [hrest, hpeeled]
  dsimp only
  rw [hkeywords]
  dsimp only
  rw [h.split_typed]
  dsimp only
  rw [Option.getD_some, h.ofChars_chars, h.returnType.ofChars_chars]
  have hattributes := h.attributes
  obtain ⟨name, keywords, attributes, constraints, generics, parameters, returnType⟩ := m
  dsimp only at hattributes
  rw [hattributes]
  cases Parameter.listOfChars (peelConstraints text).rest <;> rfl

/-- **The declaration of a method is read back.** -/
theorem ofParts_eq (h : Simple m) :
    ofParts (frontChars m ++ ' ' :: m.chars) (some (Parameter.listChars m.parameters)) = .ok m := by
  -- the clauses would stand behind the parameters
  rw [h.ofParts_front, peelConstraints_eq_none (Parameter.where_notMem_listChars h.parameters)]
  dsimp only
  rw [(Parameter.tidy_listChars h.parameters).trim_eq, Parameter.listOfChars_listChars h.parameters,
    ← h.constraints]
  rfl

end Simple

end Method

/-! ## Constructors -/

namespace Constructor

/-- The text in front of the name: the modifiers with a space behind. -/
def leading (c : Constructor) : List Char :=
  List.intercalate [' '] ((c.keywords.getD []).map String.toList) ++ [' ']

/-- The display signature. -/
def signature (c : Constructor) : List Char :=
  signatureChars c.name.toList c.parameters

/-- **A simple constructor**: without attributes, over identifiers. -/
structure Simple (c : Constructor) : Prop where
  /-- The name is an identifier. -/
  name : IsIdentifier c.name
  /-- The keywords, if any, are modifiers. -/
  keywords : AreModifiers symbolKeywords c.keywords
  /-- There are no attributes. -/
  attributes : c.attributes = none
  /-- The parameters are simple. -/
  parameters : ∀ p ∈ c.parameters, p.Simple

namespace Simple

variable {c : Constructor}

/-- The declaration in front of the parameter list. -/
def headChars (c : Constructor) : List Char :=
  wordChars (c.keywords.getD []) ++ c.name.toList

theorem written_head (h : Simple c) : Written (headChars c) :=
  h.keywords.written_append h.name.isTypeIdentifier.written

theorem joinWords_leading (h : Simple c) :
    joinWords (clean c.leading) c.signature = wordChars (c.keywords.getD []) ++ c.signature := by
  have htidy : Tidy c.signature :=
    tidy_signatureChars h.name.isTypeIdentifier.written.tidy h.parameters
  have hne : c.signature ≠ [] := by simp [signature, signatureChars]
  by_cases hks : c.keywords.getD [] = []
  · rw [leading, hks]
    exact joinWords_clean_space htidy
  · have hwritten : Written (List.intercalate [' '] ((c.keywords.getD []).map String.toList)) :=
      .intercalate (by simpa using hks) (List.forall_mem_map.mpr fun w hw =>
        written_of_mem_symbolKeywords w (h.keywords.subset hw))
    have hslash : '/' ∉ List.intercalate [' '] ((c.keywords.getD []).map String.toList) :=
      intercalate_of_join (P := fun s => '/' ∉ s) (by simpa using hks)
        (List.forall_mem_map.mpr fun w hw =>
          (plain_of_mem_symbolKeywords w (h.keywords.subset hw)).1)
        fun a b ha hb => by simp [ha, hb]
    rw [leading, hwritten.joinWords_clean hslash htidy hne, List.append_cons,
      intercalate_append_space hks]

/-- The list opens behind the name, whether it is reported or not. -/
theorem listOpening_signature (h : Simple c) {reported : List Char}
    (hreported : reported = c.name.toList ∨ reported = [] ∨ reported = ".ctor".toList) :
    listOpening c.signature reported = c.name.toList ++ ['('] := by
  have hbracket := h.name.isTypeIdentifier.ne_bracket
  have htidy := (h.name.isTypeIdentifier.written).tidy
  have hparen : '(' ∉ c.name.toList := fun hmem => (hbracket _ hmem).2.2.1 rfl
  have hsuffix : genericSuffix? c.signature = none :=
    genericSuffix?_eq_none hbracket (tidy_signatureChars htidy h.parameters).trim_eq
  rcases hreported with rfl | hreported
  · have hangle : '<' ∉ c.name.toList := fun hmem => (hbracket _ hmem).1 rfl
    have hopening : listOpening c.signature c.name.toList = c.name.toList ++ [] ++ ['('] :=
      listOpening_of_name h.name.ne h.name.ne_ctor hangle (by rw [hsuffix]; rfl)
        (by simpa using hparen) (by simpa using htidy)
    rwa [List.append_nil] at hopening
  · exact listOpening_of_unnamed hreported hsuffix hparen (htidy.append (.of_solid (by decide)))

/-- **The declaration of a constructor** is cut in front of its parameter list. -/
theorem extract_eq (h : Simple c) {reported : List Char}
    (hreported : reported = c.name.toList ∨ reported = [] ∨ reported = ".ctor".toList) :
    extract c.leading c.signature reported .constructor
      = ⟨headChars c, some (Parameter.listChars c.parameters)⟩ := by
  obtain ⟨x, hlast, hblank, hopen, -, hparen, -⟩ := h.name.isTypeIdentifier.exists_last
  exact Declaration.extract_eq (by decide) h.joinWords_leading
    (h.listOpening_signature hreported) h.written_head hlast
    ⟨ne_space_of_isBlank hblank, hopen, hparen⟩
    (Parameter.nested_listChars h.parameters) (Parameter.tidy_listChars h.parameters).trim_eq

/-- **The declaration of a constructor is read back.** -/
theorem ofParts_eq (h : Simple c) :
    ofParts (headChars c) (some (Parameter.listChars c.parameters)) = .ok c := by
  have hlead : leadingWord? symbolKeywords c.name.toList = none := by
    refine leadingWord?_eq_none_iff.mpr fun w _ => ?_
    rintro ⟨s, hs⟩
    refine h.name.isTypeIdentifier.space_notMem ?_
    rw [← hs]
    simp
  obtain ⟨hattributes, hkeywords⟩ := peel_modifiers h.keywords
    h.name.isTypeIdentifier.written.tidy.trim_eq h.name.isTypeIdentifier.beginsPlainly hlead
  have hname : TypeExpr.ofChars c.name.toList = .named c.name := by
    have hcanonical : (TypeExpr.named c.name).Canonical IsTypeIdentifier :=
      .named h.name.isTypeIdentifier
    have := hcanonical.ofChars_chars
    rwa [TypeExpr.named, TypeExpr.chars_named, show TypeExpr.markChars false [] = [] from rfl,
      List.append_nil] at this
  unfold ofParts headChars
  rw [hattributes]
  dsimp only
  rw [hkeywords]
  dsimp only
  rw [Option.getD_some, Parameter.listOfChars_listChars h.parameters, hname]
  have hattributes := h.attributes
  obtain ⟨name, keywords, attributes, parameters⟩ := c
  dsimp only at hattributes
  rw [hattributes]
  rfl

end Simple

end Constructor

/-! ## Both -/

/-- **Methods and constructors are read back** from the text in front of their name
and their display signature. A constructor may be reported by its name, without a
name or as `.ctor`. -/
theorem ofParts_extract :
    (∀ m : Method, m.Simple →
      let extracted := extract m.leading m.signature m.name.toList .method
      Method.ofParts extracted.definition extracted.parameters = .ok m)
    ∧ (∀ c : Constructor, c.Simple →
      ∀ reported ∈ [c.name.toList, [], ".ctor".toList],
      let extracted := extract c.leading c.signature reported .constructor
      Constructor.ofParts extracted.definition extracted.parameters = .ok c) := by
  refine ⟨fun m hm => ?_, fun c hc reported hreported => ?_⟩
  · rw [hm.extract_eq]
    exact hm.ofParts_eq
  · have hreported : reported = c.name.toList ∨ reported = [] ∨ reported = ".ctor".toList := by
      simpa using hreported
    rw [hc.extract_eq hreported]
    exact hc.ofParts_eq

/-- A generic method that returns an array of tuples. -/
def zipMethod : Method where
  name := "Zip"
  keywords := some ["public", "static"]
  generics := [.named "T", .named "U"]
  parameters := [
    { name := "first", type := .generic "List" [.tuple [.named "T", .named "U"]] },
    { name := "depth", keywords := some ["in"], type := .named "int", defaultValue := some "-1" }]
  returnType := (TypeExpr.tuple [.named "T", .named "U"]).withRanks [true]

/-- A constructor with a parameter. -/
def boxConstructor : Constructor where
  name := "Box"
  parameters := [{ name := "value", keywords := some ["ref"], type := .named "System.Int32" }]

/-- A parenthesis in the type of the result or of a parameter does not open the
list. -/
theorem ofParts_extract_zipMethod :
    zipMethod.leading = "public static (T, U)[]? ".toList
      ∧ zipMethod.signature = "Zip<T, U>(List<(T, U)> first, in int depth = -1)".toList
      ∧ boxConstructor.signature = "Box(ref System.Int32 value)".toList
      ∧ (let extracted := extract zipMethod.leading zipMethod.signature "Zip".toList .method
        Method.ofParts extracted.definition extracted.parameters = .ok zipMethod)
      ∧ (let extracted := extract boxConstructor.leading boxConstructor.signature ".ctor".toList
          .constructor
        Constructor.ofParts extracted.definition extracted.parameters = .ok boxConstructor) := by
  have hname : ∀ {n : String}, IsTypeIdentifier n →
      (TypeExpr.named n).Canonical IsTypeIdentifier := fun hn => .named hn
  have hT := hname (n := "T") (by decide +kernel)
  have hU := hname (n := "U") (by decide +kernel)
  have hpair : (TypeExpr.tuple [.named "T", .named "U"]).Canonical IsTypeIdentifier :=
    .tuple (List.cons_ne_nil _ _) (List.forall_mem_cons.mpr ⟨hT, List.forall_mem_singleton.mpr hU⟩)
  have hpairs : ((TypeExpr.tuple [.named "T", .named "U"]).withRanks [true]).Canonical
      IsTypeIdentifier :=
    .tuple (List.cons_ne_nil _ _) (List.forall_mem_cons.mpr ⟨hT, List.forall_mem_singleton.mpr hU⟩)
  have hzip : zipMethod.Simple :=
    { name := by decide +kernel
      keywords := by decide
      attributes := rfl
      constraints := rfl
      generics := List.forall_mem_cons.mpr ⟨⟨"T", by decide +kernel, rfl⟩,
        List.forall_mem_singleton.mpr ⟨"U", by decide +kernel, rfl⟩⟩
      parameters := List.forall_mem_cons.mpr
        ⟨{ name := by decide +kernel
           type := .generic (by decide +kernel) (List.cons_ne_nil _ _)
             (List.forall_mem_singleton.mpr hpair)
           type_ne := by decide
           keywords := by decide
           attributes := rfl
           defaultValue := by decide },
         List.forall_mem_singleton.mpr
           { name := by decide +kernel
             type := hname (by decide +kernel)
             type_ne := by decide
             keywords := by decide
             attributes := rfl
             defaultValue := by decide }⟩
      returnType := hpairs
      returnType_ne := by decide }
  have hbox : boxConstructor.Simple :=
    { name := by decide +kernel
      keywords := by decide
      attributes := rfl
      parameters := List.forall_mem_singleton.mpr
        { name := by decide +kernel
          type := hname (by decide +kernel)
          type_ne := by decide
          keywords := by decide
          attributes := rfl
          defaultValue := by decide } }
  exact ⟨by decide, by decide, by decide, ofParts_extract.1 zipMethod hzip,
    ofParts_extract.2 boxConstructor hbox _ (by decide)⟩

end TestScaffold
