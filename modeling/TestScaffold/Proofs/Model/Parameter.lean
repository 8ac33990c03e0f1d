import TestScaffold.Model.Parameter
import TestScaffold.Proofs.Declaration.Peel
import TestScaffold.Proofs.TypeExpr.RoundTrip
/-!
# Reading parameters back

`Parameter.source` writes a parameter the way a declaration does: its attribute
groups, its modifiers, its type, its name and its default value, with single
spaces between them. `Readable` says what a parameter has to be like for this
text to be read as that parameter, and `listOfChars_listSource` that it then is,
in a list of any length.

A list is cut three times by the reader of literals – at commas, at the equals
sign, at spaces – each time in another text. Every cut falls between segments
(`Scan.Segment`): groups and types keep their commas, equals signs and spaces
inside brackets, and of a default value `Readable` asks no more than to be a
segment as to commas, so that a literal in it may hold anything.
-/

namespace TestScaffold.Parameter

open Scan Text Declaration

/-! ## Written parameters -/

/-- The equals sign and the default value, when there is one. -/
def defaultWords (p : Parameter) : List (List Char) :=
  match p.defaultValue with
  | some value => [['='], value.toList]
  | none => []

/-- The parts a parameter is written in. -/
def sourceWords (p : Parameter) : List (List Char) :=
  (p.attributes.getD []).map (fun a => '[' :: (a.toList ++ [']']))
    ++ ((p.keywords.getD []).map String.toList ++ (p.type.chars :: p.name.toList :: p.defaultWords))

/-- **The source text of a parameter**, with its attributes. -/
def source (p : Parameter) : List Char :=
  List.intercalate [' '] p.sourceWords

/-- The source text of a parameter list. -/
def listSource (ps : List Parameter) : List Char :=
  commaJoin (ps.map source)

/-- **A readable parameter**: its parts can be told apart in its source text. -/
structure Readable (p : Parameter) : Prop where
  /-- The name holds something. -/
  name_ne : p.name.toList ≠ []
  /-- The name is free of blanks, brackets, quotes, commas and equals signs. -/
  name : ∀ c ∈ p.name.toList,
    isBlank c = false ∧ isBracket c = false ∧ isQuote c = false ∧ c ≠ ',' ∧ c ≠ '='
  /-- The type is canonical. -/
  type : p.type.Canonical IsTypeName
  /-- The type is a tuple, or its name holds something but no blank and no equals
  sign. -/
  typeName : p.type.isTuple = true
    ∨ (p.type.name.toList ≠ [] ∧ ∀ c ∈ p.type.name.toList, isBlank c = false ∧ c ≠ '=')
  /-- The type does not read as a modifier. -/
  type_ne : ∀ w ∈ vocabulary, p.type.chars ≠ w.toList
  /-- The keywords, if any, are modifiers. -/
  keywords : AreModifiers vocabulary p.keywords
  /-- The attributes, if any, are trimmed, quote-free and properly nested. -/
  attributes : ∀ as ∈ p.attributes, as ≠ [] ∧ ∀ a ∈ as,
    Text.trim a.toList = a.toList ∧ (∀ c ∈ a.toList, isQuote c = false) ∧ Nested a.toList
  /-- The default value, if any, is trimmed and a segment as to commas. -/
  defaultValue : ∀ v ∈ p.defaultValue, Text.trim v.toList = v.toList ∧ Segment ',' v.toList

theorem isVocabulary_vocabulary : IsVocabulary vocabulary := by decide

/-- No modifier holds a bracket, a quote or a comma. -/
theorem quiet_of_mem_vocabulary : ∀ w ∈ vocabulary, Quiet ',' w.toList := by
  have hplain : ∀ w ∈ vocabulary, ∀ c ∈ w.toList,
      isBracket c = false ∧ isQuote c = false ∧ c ≠ ',' := by decide
  exact fun w hw => .of_plain (hplain w hw)

theorem plain_of_mem_vocabulary :
    ∀ w ∈ vocabulary, ∀ c ∈ w.toList, isBracket c = false := by
  decide

namespace Readable

variable {p : Parameter}

/-! ## The type and the name -/

/-- The name in front of the marks of the type does not hold a blank or an equals
sign. -/
theorem notMem_typeName (h : Readable p) {d : Char} (hd : isBlank d = true ∨ d = '=') :
    d ∉ p.type.name.toList := by
  intro hmem
  rcases h.type.tuple_or_name with ⟨-, hname, -⟩ | ⟨htuple, -, -⟩
  · rw [hname] at hmem
    exact absurd hmem (by simp)
  · obtain ⟨-, hchars⟩ := h.typeName.resolve_left (by simp [htuple])
    obtain ⟨hblank, heq⟩ := hchars d hmem
    rcases hd with hd | rfl
    · rw [hd] at hblank
      exact Bool.noConfusion hblank
    · exact heq rfl

theorem quiet_type_space (h : Readable p) : Quiet ' ' p.type.chars :=
  h.type.quiet_chars (by decide) (h.notMem_typeName (.inl (by decide)))

theorem quiet_type_equals (h : Readable p) : Quiet '=' p.type.chars :=
  h.type.quiet_chars (by decide) (h.notMem_typeName (.inr rfl))

theorem quiet_type_comma (h : Readable p) : Quiet ',' p.type.chars :=
  h.type.quiet _ h.type.spaced_chars

/-- The text of the type begins with its name or with a parenthesis. -/
theorem beginsPlainly_type (h : Readable p) : BeginsPlainly p.type.chars := by
  rcases h.type.tuple_or_name with ⟨-, -, s, hs⟩ | ⟨htuple, hname, s, hs⟩
  · exact ⟨'(', s, hs, by decide, by decide, by decide⟩
  · obtain ⟨hne, hchars⟩ := h.typeName.resolve_left (by simp [htuple])
    obtain ⟨c, rest, hc⟩ := List.exists_cons_of_ne_nil hne
    have hmem : c ∈ p.type.name.toList := by
      rw [hc]
      exact List.mem_cons_self
    have hmark := hname.2 c hmem
    refine ⟨c, rest ++ s, by rw [hs, hc]; rfl, (hchars c hmem).1, ?_, ?_⟩
      <;> rintro rfl <;> exact absurd hmark (by decide)

theorem segment_name (h : Readable p) {d : Char}
    (hd : ∀ c ∈ p.name.toList, c ≠ d) : Segment d p.name.toList :=
  (Quiet.of_plain fun c hc => ⟨(h.name c hc).2.1, (h.name c hc).2.2.1, hd c hc⟩).segment

theorem trim_name (h : Readable p) : Text.trim p.name.toList = p.name.toList :=
  trim_eq_self_of_solid fun c hc => (h.name c hc).1

end Readable

/-- The type and the name with the space between them. -/
def typedChars (p : Parameter) : List Char :=
  p.type.chars ++ ' ' :: p.name.toList

namespace Readable

variable {p : Parameter}

theorem beginsPlainly_typed (h : Readable p) : BeginsPlainly p.typedChars :=
  h.beginsPlainly_type.append _

theorem trim_typed (h : Readable p) : Text.trim p.typedChars = p.typedChars := by
  have hsplit : p.typedChars = (p.type.chars ++ [' ']) ++ p.name.toList := by
    simp [typedChars]
  have htrim := trim_append_of_trimStart (a := p.type.chars ++ [' ']) (b := p.name.toList)
    (by rw [← hsplit]; exact h.beginsPlainly_typed.trimStart_eq)
    (trimStart_eq_self_iff.mpr (trim_eq_self_iff.mp h.trim_name).1)
    (by rw [h.trim_name]; exact h.name_ne)
  rw [hsplit, htrim, h.trim_name]

/-- Behind the name only the end is trimmed. -/
theorem trim_typed_append (h : Readable p) (s : List Char) :
    Text.trim (p.typedChars ++ s) = p.typedChars ++ trimEnd s := by
  have hend : trimEnd p.typedChars = p.typedChars :=
    trimEnd_eq_self_iff.mpr (trim_eq_self_iff.mp h.trim_typed).2
  rw [Text.trim, (h.beginsPlainly_typed.append s).trimStart_eq, trimEnd_append]
  split
  · next hs => rw [hend, hs, List.append_nil]
  · rfl

/-- **The type and the name are split at the space between them.** -/
theorem split_typed (h : Readable p) :
    split ' ' p.typedChars = [Text.trim p.type.chars, p.name.toList] := by
  have hname : Segment ' ' p.name.toList := h.segment_name fun c hc he => by
    have := (h.name c hc).1
    rw [he] at this
    exact absurd this (by decide)
  rw [typedChars, split_join (by decide) h.quiet_type_space.segment, split_segment hname,
    h.trim_name]

end Readable

/-! ## The parts of the source text -/

/-- The default value with the equals sign and the spaces around it. -/
def defaultChars (p : Parameter) : List Char :=
  match p.defaultValue with
  | some value => " = ".toList ++ value.toList
  | none => []

/-- **The source text in its parts**: the groups and the keywords with a space
behind each, the type and the name, the default value. -/
theorem source_eq (p : Parameter) :
    p.source = groupChars (p.attributes.getD [])
      ++ (wordChars (p.keywords.getD []) ++ (p.typedChars ++ p.defaultChars)) := by
  have hgroups : ((p.attributes.getD []).map fun a => '[' :: (a.toList ++ [']'])).flatMap
      (· ++ [' ']) = groupChars (p.attributes.getD []) := by
    rw [List.flatMap_map, groupChars]
    simp
  have hwords : ((p.keywords.getD []).map String.toList).flatMap (· ++ [' '])
      = wordChars (p.keywords.getD []) := by
    rw [List.flatMap_map, wordChars]
  have hrest : List.intercalate [' '] (p.type.chars :: p.name.toList :: p.defaultWords)
      = p.typedChars ++ p.defaultChars := by
    unfold defaultWords defaultChars typedChars
    cases p.defaultValue <;> simp [List.intercalate_cons_cons]
  rw [source, sourceWords, intercalate_append (by simp), intercalate_append (by simp),
    hgroups, hwords, hrest]

namespace Readable

variable {p : Parameter}

/-- **The source text of a parameter is a segment of its list.** -/
theorem segment_source (h : Readable p) : Segment ',' p.source := by
  refine intercalate_of_join (P := Segment ',') (by simp [sourceWords]) ?_
    fun a b ha hb => ha.join (by decide) (by decide) hb
  have hname : Segment ',' p.name.toList :=
    h.segment_name fun c hc => (h.name c hc).2.2.2.1
  unfold sourceWords
  rw [List.forall_mem_append, List.forall_mem_append, List.forall_mem_cons,
    List.forall_mem_cons, List.forall_mem_map, List.forall_mem_map]
  refine ⟨fun a ha => ?_, fun w hw => ?_, h.quiet_type_comma.segment, hname, ?_⟩
  · cases has : p.attributes with
    | none =>
      rw [has] at ha
      exact absurd ha (by simp)
    | some as =>
      rw [has] at ha
      obtain ⟨-, hquote, hnested⟩ := (h.attributes as has).2 a ha
      exact (Quiet.group (by decide) hnested hquote).segment
  · exact (quiet_of_mem_vocabulary w (h.keywords.subset hw)).segment
  · unfold defaultWords
    cases hv : p.defaultValue with
    | none => simp
    | some v =>
      rw [List.forall_mem_cons, List.forall_mem_singleton]
      exact ⟨by decide, (h.defaultValue v hv).2⟩

/-! ## Peeling the source text -/

/-- The end of a default value is trimmed behind the equals sign. -/
theorem trimEnd_equals_append (v : List Char) :
    trimEnd (" = ".toList ++ v) = ' ' :: '=' :: trimEnd (' ' :: v) := by
  show trimEnd ([' ', '='] ++ ' ' :: v) = _
  rw [trimEnd_append]
  split
  · next hnil =>
    rw [hnil]
    rfl
  · rfl

/-- **The default value is peeled off** at the equals sign in front of it. -/
theorem peelDefault_eq (h : Readable p) :
    peelDefault (Text.trim (p.typedChars ++ p.defaultChars)) = (p.typedChars, p.defaultValue) := by
  have hname : Segment '=' p.name.toList :=
    h.segment_name fun c hc => (h.name c hc).2.2.2.2
  have htyped : Segment '=' p.typedChars :=
    h.quiet_type_equals.segment.join (by decide) (by decide) hname
  unfold defaultChars
  cases hv : p.defaultValue with
  | none =>
    rw [List.append_nil, h.trim_typed, peelDefault, cutFirst?_segment htyped]
  | some v =>
    obtain ⟨htrim, -⟩ := h.defaultValue v hv
    have hvalue : Text.trim (trimEnd (' ' :: v.toList)) = v.toList := by
      have hblank : Text.trim ([' '] ++ v.toList) = Text.trim v.toList := trim_blank_append rfl
      rw [trim_trimEnd, ← List.singleton_append, hblank, htrim]
    have hspace : Segment '=' (p.typedChars ++ [' ']) :=
      htyped.join (by decide) (by decide) .nil
    have hblank : Text.trim (p.typedChars ++ [' ']) = p.typedChars := by
      rw [trim_append_blank rfl, h.trim_typed]
    have hshape : p.typedChars ++ ' ' :: '=' :: trimEnd (' ' :: v.toList)
        = (p.typedChars ++ [' ']) ++ '=' :: trimEnd (' ' :: v.toList) := by simp
    rw [h.trim_typed_append, trimEnd_equals_append, hshape, peelDefault,
      cutFirst?_join (by decide) hspace]
    dsimp only
    rw [hblank, hvalue, String.ofList_toList]

/-- No modifier leads the type. -/
theorem leadingWord?_typed (h : Readable p) (s : List Char) :
    leadingWord? vocabulary (p.typedChars ++ s) = none := by
  rw [typedChars, List.append_assoc, List.cons_append]
  exact leadingWord?_of_quiet isVocabulary_vocabulary plain_of_mem_vocabulary
    h.quiet_type_space h.type_ne _

/-- **The attribute groups are peeled off.** -/
theorem peelAttributes_eq (h : Readable p) {s : List Char} (hs : BeginsPlainly s)
    (htrim : Text.trim s = s) :
    peelAttributes (groupChars (p.attributes.getD []) ++ s) = ⟨s, p.attributes⟩ := by
  cases has : p.attributes with
  | none => exact peelAttributes_of_plain hs htrim
  | some as =>
    obtain ⟨hne, has'⟩ := h.attributes as has
    have hgroups : ∀ a ∈ as, Text.trim a.toList = a.toList ∧ Nested a.toList := fun a ha =>
      ⟨(has' a ha).1, (has' a ha).2.2⟩
    rw [Option.getD_some, peelAttributes_groups hne hgroups hs, htrim]

/-- The keywords and the type begin plainly. -/
theorem beginsPlainly_words (h : Readable p) (s : List Char) :
    BeginsPlainly (wordChars (p.keywords.getD []) ++ (p.typedChars ++ s)) :=
  beginsPlainly_wordChars_append (fun w hw => isVocabulary_vocabulary w (h.keywords.subset hw))
    (fun w hw => plain_of_mem_vocabulary w (h.keywords.subset hw))
    (h.beginsPlainly_typed.append s)

/-- The source text begins with a bracket, a keyword or the type. -/
theorem trimStart_source (h : Readable p) : trimStart p.source = p.source := by
  rw [source_eq]
  cases has : p.attributes with
  | none => exact (h.beginsPlainly_words _).trimStart_eq
  | some as =>
    obtain ⟨a, as, rfl⟩ := List.exists_cons_of_ne_nil (h.attributes as has).1
    refine trimStart_eq_self_iff.mpr fun c hc => ?_
    have hc : c = '[' := by simpa [groupChars, eq_comm] using hc
    rw [hc]
    rfl

/-- Trimming the source text only trims the default value. -/
theorem trim_source (h : Readable p) :
    Text.trim p.source = groupChars (p.attributes.getD [])
      ++ (wordChars (p.keywords.getD []) ++ (p.typedChars ++ trimEnd p.defaultChars)) := by
  have hstart := h.trimStart_source
  have hne : Text.trim (p.typedChars ++ p.defaultChars) ≠ [] := by
    rw [h.trim_typed_append]
    simp [typedChars]
  rw [source_eq, ← List.append_assoc] at hstart ⊢
  rw [trim_append_of_trimStart hstart (h.beginsPlainly_typed.append _).trimStart_eq hne,
    h.trim_typed_append, List.append_assoc]

/-- **A readable parameter is read back** from its source text. -/
theorem ofChars_source (h : Readable p) : ofChars (Text.trim p.source) = .ok p := by
  have hbody : p.typedChars ++ trimEnd p.defaultChars
      = Text.trim (p.typedChars ++ p.defaultChars) := (h.trim_typed_append _).symm
  have htrimBody : Text.trim (p.typedChars ++ trimEnd p.defaultChars)
      = p.typedChars ++ trimEnd p.defaultChars := by
    rw [hbody, trim_trim]
  have hneBody : p.typedChars ++ trimEnd p.defaultChars ≠ [] := by simp [typedChars]
  have hvoc : IsVocabulary (p.keywords.getD []) := fun w hw =>
    isVocabulary_vocabulary w (h.keywords.subset hw)
  have htrimWords := trim_wordChars_append hvoc htrimBody hneBody
  have hattributes := h.peelAttributes_eq (h.beginsPlainly_words _) htrimWords
  have hkeywords := peelKeywords_eq isVocabulary_vocabulary h.keywords htrimBody hneBody
    (h.leadingWord?_typed _)
  have hdefault := h.peelDefault_eq
  rw [← hbody] at hdefault
  have htype : TypeExpr.ofChars (Text.trim p.type.chars) = p.type :=
    h.type.ofChars_of_spaced _ (h.type.spaced_chars.trim h.type.trim_tokens)
  unfold ofChars
  rw [trim_trim, h.trim_source]
  dsimp only
  rw [hattributes]
  dsimp only
  rw [hkeywords]
  dsimp only
  rw [hdefault]
  dsimp only
  rw [h.split_typed]
  dsimp only
  rw [htype, String.ofList_toList]

/-- A source text is not blank. -/
theorem isBlankText_source (h : Readable p) : isBlankText p.source = false := by
  obtain ⟨c, rest, hc⟩ := List.exists_cons_of_ne_nil h.name_ne
  have hblank := (h.name c (by rw [hc]; exact List.mem_cons_self)).1
  rw [source_eq, typedChars, hc]
  simp [hblank]

end Readable

/-! ## Parameter lists -/

/-- **A list is read parameter by parameter**, when each is written as a segment it
can be read from. -/
theorem listOfChars_commaJoin {ps : List Parameter} {text : Parameter → List Char}
    (hsegment : ∀ p ∈ ps, Segment ',' (text p))
    (hblank : ∀ p ∈ ps, isBlankText (text p) = false)
    (hread : ∀ p ∈ ps, ofChars (Text.trim (text p)) = .ok p) :
    listOfChars (commaJoin (ps.map text)) = .ok ps := by
  by_cases hne : ps = []
  · subst hne
    rfl
  · have hsplit := split_intercalate_space (d := ',') (by decide) (by decide)
      (by simpa using hne) (List.forall_mem_map.mpr hsegment)
    have hnot : isBlankText (commaJoin (ps.map text)) = false := by
      refine intercalate_of_join (P := fun a => isBlankText a = false) (by simpa using hne)
        (List.forall_mem_map.mpr hblank) fun a b ha hb => ?_
      rw [isBlankText_append, ha]
      rfl
    have hmap : ((ps.map text).map Text.trim).mapM ofChars = .ok ps := by
      clear hne hsplit hnot hsegment hblank
      induction ps with
      | nil => rfl
      | cons p ps ih =>
        rw [List.map_cons, List.map_cons, List.mapM_cons, hread p List.mem_cons_self,
          ih fun q hq => hread q (List.mem_cons_of_mem p hq)]
        rfl
    unfold listOfChars
    rw [hnot, if_neg Bool.false_ne_true, commaJoin, hsplit, hmap]

/-- **A list of readable parameters is read back** from its source text, whatever
literals the default values hold. -/
theorem listOfChars_listSource {ps : List Parameter} (h : ∀ p ∈ ps, Readable p) :
    listOfChars (listSource ps) = .ok ps :=
  listOfChars_commaJoin (fun p hp => (h p hp).segment_source)
    (fun p hp => (h p hp).isBlankText_source) fun p hp => (h p hp).ofChars_source

/-- A parameter with attributes and one whose default value holds commas, brackets
and quotes in literals. -/
def literalParameters : List Parameter :=
  [{ name := "pair"
     keywords := some ["ref"]
     type := (TypeExpr.tuple [.named "int", .named "string"]).withRanks [true]
     attributes := some ["In", "Size(1, 2)"] },
    { name := "path"
      type := .named "string"
      defaultValue := some "Join(@\"C:\\\", ',') + \"a, \\\" = (\"" }]

/-- Literals in a default value do not end a parameter. -/
theorem listOfChars_listSource_literals :
    listSource literalParameters
        = ("[In] [Size(1, 2)] ref (int, string)[]? pair, "
            ++ "string path = Join(@\"C:\\\", ',') + \"a, \\\" = (\"").toList
      ∧ (∀ p ∈ literalParameters, Readable p)
      ∧ listOfChars (listSource literalParameters) = .ok literalParameters := by
  have hint : (TypeExpr.named "int").Canonical IsTypeName := .named (by decide)
  have hstring : (TypeExpr.named "string").Canonical IsTypeName := .named (by decide)
  have hreadable : ∀ p ∈ literalParameters, Readable p := by
    refine List.forall_mem_cons.mpr ⟨?_, List.forall_mem_singleton.mpr ?_⟩
    · exact
        { name_ne := by decide
          name := by decide
          type := .tuple (List.cons_ne_nil _ _)
            (List.forall_mem_cons.mpr ⟨hint, List.forall_mem_singleton.mpr hstring⟩)
          typeName := .inl rfl
          type_ne := by decide
          keywords := by decide
          attributes := by decide
          defaultValue := by decide }
    · exact
        { name_ne := by decide
          name := by decide
          type := hstring
          typeName := .inr (by decide)
          type_ne := by decide
          keywords := by decide
          attributes := by decide
          defaultValue := by decide }
  exact ⟨by decide, hreadable, listOfChars_listSource hreadable⟩

end TestScaffold.Parameter
