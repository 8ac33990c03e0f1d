import TestScaffold.Proofs.Model.Member
/-!
# Methods with clauses

The `where` clauses of a generic method stand behind its parameter list, and are to leave
the reading of what is in front of them alone. Whether they do depends on how they end.

The opening of the list is looked for by the name with the generic suffix of the signature,
and a suffix is only found in a signature that ends with a parenthesis. Clauses that do end
with one leave the search as it is (`listOpening_of_closed`). For all others the bare name
with a parenthesis behind it is looked for (`listOpening_of_not_closed`). That stands in
front of no list of a generic method, so it is found in a clause, if at all
(`infix_constrained_iff`), and otherwise the first parenthesis outside brackets is taken: the
one of the list, unless the type of the result is a tuple.

`extract_constrained_iff` puts this together with the reading of the clauses, which takes the
first word `where` between two spaces for theirs, and be it a default value.
-/

namespace TestScaffold

open Scan Text Declaration

/-! ## Clauses -/

/-- A clause with single spaces between its words. -/
structure IsTidyClause (c : String) : Prop extends IsClause c where
  /-- It is tidy. -/
  tidy : Tidy c.toList

/-- The last clause ends with a parenthesis. -/
def EndInParenthesis (clauses : List String) : Prop :=
  ∃ c ∈ clauses.getLast?, c.toList.getLast? = some ')'

/-- **A word stands in one of the clauses or in the text in front of them.** -/
theorem infix_append_clauseChars_iff {w : List Char} (hspace : ' ' ∉ w)
    (hwhere : ¬ w <:+: whereChars) (s : List Char) (clauses : List String) :
    w <:+: s ++ clauseChars clauses ↔ w <:+: s ∨ ∃ c ∈ clauses, w <:+: c.toList := by
  induction clauses generalizing s with
  | nil => simp
  | cons c clauses ih =>
    have hshape : s ++ clauseChars (c :: clauses)
        = s ++ ' ' :: (whereChars ++ ' ' :: (c.toList ++ clauseChars clauses)) := by
      simp [clauseChars_cons, fenced]
    simp only [hshape, infix_append_cons_iff hspace, ih, List.exists_mem_cons_iff, hwhere,
      false_or]

section Clauses

variable {clauses : List String} (hne : clauses ≠ []) (h : ∀ c ∈ clauses, IsTidyClause c)
include hne h

/-- The clauses begin with the space in front of the first word. -/
theorem exists_trim_clauseChars :
    ∃ t, t ≠ [] ∧ Text.trim (clauseChars clauses) = t ∧ clauseChars clauses = ' ' :: t := by
  obtain ⟨c, clauses, rfl⟩ := List.exists_cons_of_ne_nil hne
  obtain ⟨hc, hclauses⟩ := List.forall_mem_cons.mp h
  have hword : Tidy (whereChars ++ ' ' :: c.toList) :=
    Tidy.join (.of_solid (by decide)) hc.tidy (by decide) hc.ne_nil
  have htidy : Tidy ((whereChars ++ ' ' :: c.toList) ++ clauseChars clauses) :=
    tidy_append_clauseChars (fun d hd => ⟨(hclauses d hd).tidy, (hclauses d hd).ne_nil⟩) hword
      (by simp)
  have hshape : clauseChars (c :: clauses)
      = [' '] ++ ((whereChars ++ ' ' :: c.toList) ++ clauseChars clauses) := by
    simp [clauseChars_cons, fenced]
  refine ⟨(whereChars ++ ' ' :: c.toList) ++ clauseChars clauses, by simp, ?_, hshape⟩
  rw [hshape, trim_blank_append rfl, htidy.trim_eq]

/-- A text with clauses behind it ends as the last one does. -/
theorem getLast?_append_clauseChars_iff (s : List Char) :
    (s ++ clauseChars clauses).getLast? = some ')' ↔ EndInParenthesis clauses := by
  rcases List.eq_nil_or_concat clauses with rfl | ⟨clauses, last, rfl⟩
  · exact absurd rfl hne
  · have hlast : last.toList ≠ [] := (h last (by simp)).ne_nil
    have hshape : s ++ clauseChars (clauses.concat last)
        = (s ++ clauseChars clauses ++ whereWord) ++ last.toList := by
      simp [clauseChars]
    rw [hshape, List.getLast?_append_of_ne_nil _ hlast]
    simp [EndInParenthesis]

end Clauses

/-! ## Cutting a declaration with clauses -/

/-- What ends a text, if it is no blank, ends the trimmed text. -/
theorem getLast?_trim_eq {s : List Char} {x : Char} (hlast : s.getLast? = some x)
    (hx : isBlank x = false) : (Text.trim s).getLast? = some x := by
  have hend : ∀ {b : List Char}, isBlankText b = true → b.getLast? ≠ some x := by
    intro b hb hbx
    rw [isBlankText_iff.mp hb x (List.mem_of_getLast? hbx)] at hx
    exact Bool.noConfusion hx
  obtain ⟨a, b, ha, hb, hs⟩ := exists_eq_append_trim s
  have hbnil : b = [] := by
    by_contra hne
    rw [hs, ← List.append_assoc, List.getLast?_append_of_ne_nil _ hne] at hlast
    exact hend hb hlast
  rw [hbnil, List.append_nil] at hs
  by_cases hnil : Text.trim s = []
  · rw [hs, hnil, List.append_nil] at hlast
    exact absurd hlast (hend ha)
  · rwa [hs, List.getLast?_append_of_ne_nil _ hnil] at hlast

/-! ## Parameters that end with the word -/

/-- The last run of a list of texts is that of the last text. -/
theorem getLast?_runs_intercalate (s : List Char) (xs : List (List Char)) (last : List Char) :
    (runs (List.intercalate (s ++ [' ']) (xs ++ [last]))).getLast? = (runs last).getLast? := by
  rw [intercalate_append (by simp), List.intercalate_singleton]
  rcases List.eq_nil_or_concat xs with rfl | ⟨xs, x, rfl⟩
  · rfl
  · have hshape : (xs.concat x).flatMap (· ++ (s ++ [' '])) ++ last
        = (xs.flatMap (· ++ (s ++ [' '])) ++ (x ++ s)) ++ ' ' :: last := by simp
    rw [hshape, runs_append_space, List.getLast?_append_of_ne_nil _ (runs_ne_nil last)]

namespace Parameter

/-- A simple parameter ends with its default value or else with its name. -/
theorem Simple.getLast?_runs_source {p : Parameter} (h : p.Simple) :
    (runs p.source).getLast? = some (p.defaultValue.getD p.name).toList := by
  have hword : ' ' ∉ (p.defaultValue.getD p.name).toList := by
    cases hv : p.defaultValue with
    | none => exact h.name.isTypeIdentifier.space_notMem
    | some v => exact fun hmem => absurd ((h.defaultValue v hv).2 ' ' hmem).1 (by decide)
  have hlast : p.sourceWords.getLast? = some (p.defaultValue.getD p.name).toList := by
    unfold sourceWords defaultWords
    cases p.defaultValue <;> simp
  obtain ⟨xs, hwords⟩ := List.getLast?_eq_some_iff.mp hlast
  rw [source, hwords]
  exact (getLast?_runs_intercalate [] xs _).trans (by rw [runs_of_solid hword]; rfl)

/-- Type and name of a parameter are written with a space between them. -/
theorem space_mem_source (p : Parameter) : ' ' ∈ p.source := by
  rw [source, sourceWords, intercalate_append (by simp), intercalate_append (by simp),
    List.intercalate_cons_cons]
  simp

section Lists

variable {ps : List Parameter} (h : ∀ p ∈ ps, p.Simple)
include h

/-- **Parameters end with the word** exactly when it is the last default value. -/
theorem where_mem_runs_iff :
    whereChars ∈ runs (listChars ps) ↔ ∃ p ∈ ps.getLast?, p.defaultValue = some "where" := by
  rcases List.eq_nil_or_concat ps with rfl | ⟨ps, p, rfl⟩
  · exact iff_of_false (by decide) (by simp)
  · rw [List.concat_eq_append] at h ⊢
    have hp : p.Simple := h p (by simp)
    have hlast : (runs (listChars (ps ++ [p]))).getLast?
        = some (p.defaultValue.getD p.name).toList := by
      rw [listChars_eq_listSource h, listSource, List.map_append, ← hp.getLast?_runs_source]
      exact getLast?_runs_intercalate [','] (ps.map source) p.source
    have hdrop := where_notMem_listChars h
    rw [← List.dropLast_append_getLast? _ hlast, List.mem_append, or_iff_right hdrop,
      List.mem_singleton, List.getLast?_concat]
    have hword : whereChars = (p.defaultValue.getD p.name).toList
        ↔ p.defaultValue.getD p.name = "where" :=
      ⟨fun heq => String.toList_inj.mp heq.symm, fun heq => by rw [heq]; rfl⟩
    rw [hword]
    cases hv : p.defaultValue with
    | none => simpa [hv] using hp.name.ne_where
    | some v => simp [hv]

/-- A list of parameters that ends with the word has a space in front of it. -/
theorem exists_listChars_eq (hmem : whereChars ∈ runs (listChars ps)) :
    ∃ a, whereChars ∉ runs a ∧ listChars ps = a ++ ' ' :: whereChars := by
  have hdrop := where_notMem_listChars h
  obtain ⟨r, hr, hlist | ⟨a, hlist⟩⟩ := exists_last_run (listChars ps)
  · -- a parameter is more than one run
    have hne : ps ≠ [] := by
      rintro rfl
      exact absurd hmem (by decide)
    have hspace : ' ' ∈ listChars ps :=
      listChars_of_comma (P := fun s => ' ' ∈ s) h hne (fun p _ => space_mem_source p)
        fun a b ha _ => List.mem_append_left _ ha
    rw [hlist] at hspace
    exact absurd hspace hr
  · rw [hlist, runs_append_space, runs_of_solid hr] at hmem hdrop
    rw [List.dropLast_concat] at hdrop
    have hword := List.mem_singleton.mp ((List.mem_append.mp hmem).resolve_left hdrop)
    exact ⟨a, hdrop, by rw [hlist, hword]⟩

end Lists

end Parameter

/-! ## Where the declaration is cut -/

namespace Method

/-- **Clauses that leave the cut alone**: the last one ends with a parenthesis, or the type
of the result is no tuple and no clause holds the name of the method with a parenthesis
behind it. -/
def CutUnmoved (m : Method) (clauses : List String) : Prop :=
  EndInParenthesis clauses
    ∨ (m.returnType.isTuple = false ∧ ∀ c ∈ clauses, ¬ m.name.toList ++ ['('] <:+: c.toList)

namespace Simple

variable {m : Method} {clauses : List String}

/-- The declaration in front of the parameter list. -/
def headChars (m : Method) : List Char :=
  frontChars m ++ ' ' :: m.chars

/-- The whole declaration with its clauses. -/
def constrainedChars (m : Method) (clauses : List String) : List Char :=
  headChars m ++ '(' :: (Parameter.listChars m.parameters ++ ')' :: clauseChars clauses)

theorem written_headChars (h : m.Simple) : Written (headChars m) :=
  h.written_front.join h.written_chars

theorem chars_of_generics (hgenerics : m.generics ≠ []) :
    m.chars = m.name.toList ++ '<' :: (TypeExpr.listChars m.generics ++ ['>']) := by
  rw [chars_eq_append, suffixChars, if_neg hgenerics]
  rfl

/-- The declaration ends with the bracket of the generic parameters. -/
theorem getLast?_headChars (hgenerics : m.generics ≠ []) : (headChars m).getLast? = some '>' := by
  have hshape : headChars m
      = (frontChars m ++ ' ' :: (m.name.toList ++ '<' :: TypeExpr.listChars m.generics))
        ++ ['>'] := by
    rw [headChars, chars_of_generics hgenerics]
    simp
  rw [hshape, List.getLast?_concat]

theorem tidy_constrained (h : m.Simple) (hclauses : ∀ c ∈ clauses, IsTidyClause c) :
    Tidy (m.signature ++ clauseChars clauses) :=
  tidy_append_clauseChars (fun c hc => ⟨(hclauses c hc).tidy, (hclauses c hc).ne_nil⟩)
    (tidy_signatureChars h.written_chars.tidy h.parameters) (by simp [signature, signatureChars])

/-- The declaration with its clauses. -/
theorem joinWords_constrained (h : m.Simple) (hclauses : ∀ c ∈ clauses, IsTidyClause c) :
    joinWords (clean m.leading) (m.signature ++ clauseChars clauses)
      = constrainedChars m clauses := by
  rw [leading_eq, h.written_front.joinWords_clean h.slash_notMem_front (h.tidy_constrained hclauses)
    (by simp [signature, signatureChars])]
  simp [constrainedChars, headChars, signature, signatureChars]

/-- **A declaration that is cut in front of its list keeps the clauses** behind the
parameters. -/
theorem extract_constrained_of_cut (h : m.Simple) (hne : clauses ≠ [])
    (hclauses : ∀ c ∈ clauses, IsTidyClause c)
    (hcut : cutAtList? (listOpening (m.signature ++ clauseChars clauses) m.name.toList)
        (constrainedChars m clauses)
      = some (headChars m, Parameter.listChars m.parameters ++ ')' :: clauseChars clauses)) :
    extract m.leading (m.signature ++ clauseChars clauses) m.name.toList .method
      = ⟨headChars m, some (Parameter.listChars m.parameters ++ clauseChars clauses)⟩ := by
  obtain ⟨t, htne, htrim, ht⟩ := exists_trim_clauseChars hne hclauses
  rw [extract_of_cut (by decide) (h.joinWords_constrained hclauses) hcut
    (Parameter.nested_listChars h.parameters) (Parameter.tidy_listChars h.parameters).trim_eq,
    h.written_headChars.tidy.trim_eq, htrim, if_neg (by simpa using htne), ht]

/-- The list opens behind the generic parameters when the clauses end with a
parenthesis. -/
theorem listOpening_of_closed (h : m.Simple) (hgenerics : m.generics ≠ []) (hne : clauses ≠ [])
    (hclauses : ∀ c ∈ clauses, IsTidyClause c)
    (hclosed : EndInParenthesis clauses) :
    listOpening (m.signature ++ clauseChars clauses) m.name.toList = m.chars ++ ['('] := by
  have htidy := h.tidy_constrained hclauses
  have hshape : m.signature ++ clauseChars clauses
      = m.name.toList ++ '<' :: (TypeExpr.listChars m.generics ++ '>' :: '('
        :: (Parameter.listChars m.parameters ++ ')' :: clauseChars clauses)) := by
    rw [signature, signatureChars, chars_of_generics hgenerics]
    simp
  have hlast : (Parameter.listChars m.parameters ++ ')' :: clauseChars clauses).getLast?
      = some ')' := by
    rw [List.append_cons, getLast?_append_clauseChars_iff hne hclauses]
    exact hclosed
  have hline := newline_notMem_of_tidy htidy
  rw [hshape] at htidy hline ⊢
  simp only [List.mem_append, List.mem_cons, not_or] at hline
  have harguments : TypeExpr.listChars m.generics ≠ [] := by
    refine (TypeExpr.typeText_listChars hgenerics fun g hg => ?_).written.ne_nil
    obtain ⟨n, hn, rfl⟩ := h.generics g hg
    exact (TypeExpr.Canonical.named hn.isTypeIdentifier).typeText
  obtain ⟨more, hsuffix, hmore⟩ := exists_genericSuffix?_eq_some
    h.name.isTypeIdentifier.ne_bracket h.name.ne harguments hlast (by simp [hline]) htidy.trim_eq
  have hangle : '<' ∉ m.name.toList := fun hmem =>
    (h.name.isTypeIdentifier.ne_bracket _ hmem).1 rfl
  have hparen := h.paren_notMem_chars
  have hchars := h.written_chars.tidy
  rw [chars_of_generics hgenerics] at hparen hchars ⊢
  exact listOpening_of_suffix h.name.ne h.name.ne_ctor hangle hsuffix hmore hparen hchars

/-- The list opens behind the bare name when they do not. -/
theorem listOpening_of_not_closed (h : m.Simple) (hne : clauses ≠ [])
    (hclauses : ∀ c ∈ clauses, IsTidyClause c)
    (hopen : ¬EndInParenthesis clauses) :
    listOpening (m.signature ++ clauseChars clauses) m.name.toList = m.name.toList ++ ['('] := by
  have hsuffix : genericSuffix? (m.signature ++ clauseChars clauses) = none := by
    refine genericSuffix?_eq_none_of_getLast? ?_
    rwa [(h.tidy_constrained hclauses).trim_eq, ne_eq, getLast?_append_clauseChars_iff hne hclauses]
  have hbracket := h.name.isTypeIdentifier.ne_bracket
  have hangle : '<' ∉ m.name.toList := fun hmem => (hbracket _ hmem).1 rfl
  have hparen : '(' ∉ m.name.toList := fun hmem => (hbracket _ hmem).2.2.1 rfl
  have hopening : listOpening (m.signature ++ clauseChars clauses) m.name.toList
      = m.name.toList ++ [] ++ ['('] :=
    listOpening_of_name h.name.ne h.name.ne_ctor hangle (by rw [hsuffix]; rfl)
      (by simpa using hparen) (by simpa using h.name.isTypeIdentifier.written.tidy)
  rwa [List.append_nil] at hopening

/-- **Where the bare name stands with a parenthesis behind it**: nowhere but in the
clauses. -/
theorem infix_constrained_iff (h : m.Simple) (hgenerics : m.generics ≠ []) :
    m.name.toList ++ ['('] <:+: constrainedChars m clauses
      ↔ ∃ c ∈ clauses, m.name.toList ++ ['('] <:+: c.toList := by
  obtain ⟨x, hlast, hblank, hopen, hclose, hparen, -⟩ := h.name.isTypeIdentifier.exists_last
  have hxo : x ≠ ' ' ∧ x ≠ '<' ∧ x ≠ '(' := ⟨ne_space_of_isBlank hblank, hopen, hparen⟩
  have hlist := chain_parentheses (Parameter.written_listChars h.parameters)
  -- the parenthesis of the list stands behind the bracket of the generic parameters
  have hchain : (headChars m ++ (['('] ++ (Parameter.listChars m.parameters ++ [')']))).IsChain
      fun a b => b = '(' → a ≠ x := by
    refine (chain_of_follows h.written_headChars.chain hxo).append (chain_of_follows hlist hxo) ?_
    intro a ha b _ _
    rw [getLast?_headChars hgenerics, Option.mem_some_iff] at ha
    exact fun heq => hclose (heq.symm.trans ha.symm)
  have hspace : ' ' ∉ m.name.toList ++ ['('] := by
    have := h.name.isTypeIdentifier.space_notMem
    simp [this]
  have hwhere : ¬ m.name.toList ++ ['('] <:+: whereChars := fun hstands =>
    absurd (hstands.subset (by simp : '(' ∈ m.name.toList ++ ['('])) (by decide)
  have hshape : constrainedChars m clauses
      = (headChars m ++ (['('] ++ (Parameter.listChars m.parameters ++ [')'])))
        ++ clauseChars clauses := by simp [constrainedChars]
  rw [hshape, infix_append_clauseChars_iff hspace hwhere,
    or_iff_right (not_infix_of_chain hlast hchain)]

/-- The search for a parenthesis outside brackets passes the modifiers. -/
theorem skipped_keywords (h : m.Simple) : Skipped '(' (wordChars (m.keywords.getD [])) := by
  refine .of_plain (by decide) fun c hc => ?_
  obtain ⟨w, hw, hcw⟩ := List.mem_flatMap.mp hc
  rcases List.mem_append.mp hcw with hcw | hcw
  · exact (plain_of_mem_symbolKeywords w (h.keywords.subset hw)).2 c hcw
  · rw [List.mem_singleton.mp hcw]
    rfl

/-- … and the whole declaration, unless the type of the result is a tuple. -/
theorem skipped_headChars (h : m.Simple) (htuple : m.returnType.isTuple = false) :
    Skipped '(' (headChars m) := by
  have hspace : Skipped '(' [' '] := .of_plain (by decide) (by decide)
  have hname : Skipped '(' m.chars := by
    rw [chars_eq_chars]
    exact h.canonical_name.skipped_chars rfl
  exact (h.skipped_keywords.append (h.returnType.skipped_chars htuple)).append
    (hspace.append hname)

/-! ### Where the declaration is cut -/

/-- **A clause that holds the name with a parenthesis behind it is cut itself**, so that
the declaration ends with the name. -/
theorem exists_cutAtList?_of_clause (h : m.Simple) (hgenerics : m.generics ≠ [])
    (hclause : ∃ c ∈ clauses, m.name.toList ++ ['('] <:+: c.toList) :
    ∃ head rest, cutAtList? (m.name.toList ++ ['(']) (constrainedChars m clauses)
        = some (head, rest) ∧ Text.trim head ≠ headChars m := by
  have hstands := (h.infix_constrained_iff hgenerics).mpr hclause
  obtain ⟨⟨before, after⟩, hcut⟩ : ∃ cut,
      cutAt? (m.name.toList ++ ['(']) (constrainedChars m clauses) = some cut :=
    Option.ne_none_iff_exists'.mp fun hnone => cutAt?_eq_none_iff.mp hnone hstands
  refine ⟨before ++ m.name.toList, after, ?_, fun heq => ?_⟩
  · rw [cutAtList?, hcut]
    dsimp only
    rw [List.dropLast_concat]
  · obtain ⟨x, hlast, hblank, -, hclose, -⟩ := h.name.isTypeIdentifier.exists_last
    have hend : (before ++ m.name.toList).getLast? = some x := by
      rw [List.getLast?_append_of_ne_nil _ h.name.ne, hlast]
    have htrim := getLast?_trim_eq hend hblank
    rw [heq, getLast?_headChars hgenerics, Option.some.injEq] at htrim
    exact hclose htrim.symm

/-- **A tuple is taken for the parameter list** when the name is not found. -/
theorem exists_cutAtList?_of_tuple (h : m.Simple) (hgenerics : m.generics ≠ [])
    (hclause : ¬∃ c ∈ clauses, m.name.toList ++ ['('] <:+: c.toList)
    (htuple : m.returnType.isTuple = true) :
    ∃ head rest, cutAtList? (m.name.toList ++ ['(']) (constrainedChars m clauses)
        = some (head, rest) ∧ Text.trim head ≠ headChars m := by
  have hcut := cutAt?_eq_none_iff.mpr (mt (h.infix_constrained_iff hgenerics).mp hclause)
  obtain ⟨s, hs⟩ : ∃ s, m.returnType.chars = '(' :: s := by
    rcases h.returnType.tuple_or_name with ⟨-, -, hs⟩ | ⟨hno, -⟩
    · exact hs
    · rw [htuple] at hno
      exact Bool.noConfusion hno
  obtain ⟨rest, hshape⟩ : ∃ rest, constrainedChars m clauses
      = wordChars (m.keywords.getD []) ++ '(' :: rest := by
    simp [constrainedChars, headChars, frontChars, hs]
  refine ⟨wordChars (m.keywords.getD []), rest, ?_, fun heq => ?_⟩
  · rw [cutAtList?, hcut]
    dsimp only
    rw [hshape, h.skipped_keywords.cutAtOpen?_append]
  · have hlength := Text.length_trim_le (wordChars (m.keywords.getD []))
    rw [heq, headChars, frontChars, hs] at hlength
    simp only [List.length_append, List.length_cons] at hlength
    omega

/-- **The first parenthesis outside brackets opens the list** otherwise. -/
theorem cutAtList?_of_name (h : m.Simple) (hgenerics : m.generics ≠ [])
    (hclause : ¬∃ c ∈ clauses, m.name.toList ++ ['('] <:+: c.toList)
    (htuple : m.returnType.isTuple = false) :
    cutAtList? (m.name.toList ++ ['(']) (constrainedChars m clauses)
      = some (headChars m, Parameter.listChars m.parameters ++ ')' :: clauseChars clauses) := by
  have hcut := cutAt?_eq_none_iff.mpr (mt (h.infix_constrained_iff hgenerics).mp hclause)
  rw [cutAtList?, hcut]
  dsimp only
  rw [constrainedChars, (h.skipped_headChars htuple).cutAtOpen?_append]

/-- **A declaration that is cut in front of its list keeps the clauses** behind the
parameters. -/
theorem extract_constrained (h : m.Simple) (hgenerics : m.generics ≠ []) (hne : clauses ≠ [])
    (hclauses : ∀ c ∈ clauses, IsTidyClause c) (hcut : m.CutUnmoved clauses) :
    extract m.leading (m.signature ++ clauseChars clauses) m.name.toList .method
      = ⟨headChars m, some (Parameter.listChars m.parameters ++ clauseChars clauses)⟩ := by
  refine h.extract_constrained_of_cut hne hclauses ?_
  by_cases hclosed : EndInParenthesis clauses
  · obtain ⟨x, hx, hxo⟩ := h.exists_last
    have hfront : Written ((frontChars m ++ [' ']) ++ m.chars) := by
      simpa [headChars] using h.written_headChars
    have hopening := hfront.cutAt?_opening hx hxo
      (Parameter.listChars m.parameters ++ ')' :: clauseChars clauses)
    have hshape : constrainedChars m clauses = (frontChars m ++ [' '])
        ++ (m.chars
          ++ '(' :: (Parameter.listChars m.parameters ++ ')' :: clauseChars clauses)) := by
      simp [constrainedChars, headChars]
    rw [h.listOpening_of_closed hgenerics hne hclauses hclosed, cutAtList?, hshape, hopening]
    simp [headChars]
  · obtain ⟨htuple, hnot⟩ := hcut.resolve_left hclosed
    have hclause : ¬∃ c ∈ clauses, m.name.toList ++ ['('] <:+: c.toList := by
      rintro ⟨c, hc, hin⟩
      exact hnot c hc hin
    rw [h.listOpening_of_not_closed hne hclauses hclosed]
    exact h.cutAtList?_of_name hgenerics hclause htuple

/-- **Clauses that move the cut spoil the declaration.** -/
theorem definition_ne_of_not_cutUnmoved (h : m.Simple) (hgenerics : m.generics ≠ [])
    (hne : clauses ≠ []) (hclauses : ∀ c ∈ clauses, IsTidyClause c)
    (hcut : ¬m.CutUnmoved clauses) :
    (extract m.leading (m.signature ++ clauseChars clauses) m.name.toList .method).definition
      ≠ headChars m := by
  obtain ⟨hclosed, hmoved⟩ := not_or.mp hcut
  have hwrong : ∃ head rest, cutAtList? (m.name.toList ++ ['(']) (constrainedChars m clauses)
      = some (head, rest) ∧ Text.trim head ≠ headChars m := by
    by_cases hclause : ∃ c ∈ clauses, m.name.toList ++ ['('] <:+: c.toList
    · exact h.exists_cutAtList?_of_clause hgenerics hclause
    · refine h.exists_cutAtList?_of_tuple hgenerics hclause ?_
      by_contra htuple
      exact hmoved ⟨by simpa using htuple, fun c hc hin => hclause ⟨c, hc, hin⟩⟩
  obtain ⟨head, rest, hat, hdiffers⟩ := hwrong
  rw [← h.listOpening_of_not_closed hne hclauses hclosed] at hat
  rw [definition_extract (by decide) (h.joinWords_constrained hclauses) hat]
  exact hdiffers

/-! ### Reading the declaration -/

/-- **The method is read back with its clauses** exactly when the parameters do not end
with the word in front of clauses. -/
theorem ofParts_constrained_iff (h : m.Simple) (hne : clauses ≠ [])
    (hclauses : ∀ c ∈ clauses, IsTidyClause c) :
    ofParts (headChars m) (some (Parameter.listChars m.parameters ++ clauseChars clauses))
        = .ok { m with constraints := some clauses }
      ↔ whereChars ∉ runs (Parameter.listChars m.parameters) := by
  have hclause : ∀ c ∈ clauses, IsClause c := fun c hc => (hclauses c hc).toIsClause
  rw [headChars, h.ofParts_front]
  constructor
  · intro hok hmem
    obtain ⟨a, ha, hlist⟩ := Parameter.exists_listChars_eq h.parameters hmem
    obtain ⟨c, clauses, rfl⟩ := List.exists_cons_of_ne_nil hne
    rw [hlist, peelConstraints_of_where ha (hclauses c List.mem_cons_self).tidy hclause] at hok
    dsimp only at hok
    cases hps : Parameter.listOfChars (Text.trim a) with
    | error e =>
      rw [hps] at hok
      exact absurd hok (by simp [Except.map])
    | ok ps =>
      rw [hps] at hok
      -- the first clause would begin with the word
      have hfound := congrArg Method.constraints (Except.ok.inj hok)
      have hfirst := congrArg String.toList (List.cons.inj (Option.some.inj hfound)).1
      rw [String.toList_ofList] at hfirst
      have hlength := congrArg List.length hfirst
      rw [List.length_append, List.length_cons] at hlength
      omega
  · intro hmem
    rw [peelConstraints_clauses hmem hne hclause]
    dsimp only
    rw [(Parameter.tidy_listChars h.parameters).trim_eq,
      Parameter.listOfChars_listChars h.parameters]
    rfl

end Simple

/-- **When clauses leave a generic method alone.** The declaration is cut as it is without
the clauses exactly when these leave the cut alone; and the method is then read back with
them exactly when its last parameter has not the word `where` for a default value. -/
theorem extract_constrained_iff {m : Method} (h : m.Simple) (hgenerics : m.generics ≠ [])
    {clauses : List String} (hne : clauses ≠ []) (hclauses : ∀ c ∈ clauses, IsTidyClause c) :
    let plain := extract m.leading m.signature m.name.toList .method
    let constrained := extract m.leading (m.signature ++ clauseChars clauses) m.name.toList .method
    (constrained.definition = plain.definition ↔ m.CutUnmoved clauses)
      ∧ (constrained.definition = plain.definition
          ∧ ofParts constrained.definition constrained.parameters
            = .ok { m with constraints := some clauses }
        ↔ m.CutUnmoved clauses ∧ ∀ p ∈ m.parameters.getLast?, p.defaultValue ≠ some "where") := by
  have hplain : (extract m.leading m.signature m.name.toList .method).definition
      = Simple.headChars m := by
    rw [h.extract_eq]
    rfl
  have hdefinition :
      (extract m.leading (m.signature ++ clauseChars clauses) m.name.toList .method).definition
        = Simple.headChars m ↔ m.CutUnmoved clauses := by
    refine ⟨fun heq => ?_, fun hcut => ?_⟩
    · by_contra hcut
      exact h.definition_ne_of_not_cutUnmoved hgenerics hne hclauses hcut heq
    · rw [h.extract_constrained hgenerics hne hclauses hcut]
  dsimp only
  rw [hplain, hdefinition]
  refine ⟨Iff.rfl, and_congr_right fun hcut => ?_⟩
  rw [h.extract_constrained hgenerics hne hclauses hcut, h.ofParts_constrained_iff hne hclauses,
    Parameter.where_mem_runs_iff h.parameters]
  simp

/-- A generic method that returns a tuple. -/
def pairMethod : Method where
  name := "Pair"
  keywords := some ["public"]
  generics := [.named "T"]
  parameters := [{ name := "a", type := .named "T" }]
  returnType := .tuple [.named "T", .named "int"]

theorem simple_pairMethod : pairMethod.Simple where
  name := by decide +kernel
  keywords := by decide
  attributes := rfl
  constraints := rfl
  generics := List.forall_mem_singleton.mpr ⟨"T", by decide +kernel, rfl⟩
  parameters := List.forall_mem_singleton.mpr
    { name := by decide +kernel
      type := .named (by decide +kernel)
      type_ne := by decide
      keywords := by decide
      attributes := rfl
      defaultValue := by decide }
  returnType := .tuple (List.cons_ne_nil _ _) (List.forall_mem_cons.mpr
    ⟨.named (by decide +kernel), List.forall_mem_singleton.mpr (.named (by decide +kernel))⟩)
  returnType_ne := by decide

/-- The clauses of the pair end with a parenthesis, so it is read back with them. -/
theorem extract_constrained_iff_pairMethod :
    pairMethod.Simple ∧ pairMethod.generics ≠ [] ∧ ["T : class, new()"] ≠ []
      ∧ (∀ c ∈ ["T : class, new()"], IsTidyClause c)
      ∧ (let constrained := extract pairMethod.leading
          (pairMethod.signature ++ clauseChars ["T : class, new()"]) pairMethod.name.toList .method
        ofParts constrained.definition constrained.parameters
          = .ok { pairMethod with constraints := some ["T : class, new()"] }) := by
  have hgenerics : pairMethod.generics ≠ [] := by simp [pairMethod]
  have hclauses : ∀ c ∈ ["T : class, new()"], IsTidyClause c :=
    List.forall_mem_singleton.mpr
      { ne_nil := by decide, trim_eq := by decide, notMem := by decide
        tidy := tidy_iff_normalize_eq.mpr (by decide) }
  have hcut : pairMethod.CutUnmoved ["T : class, new()"] := .inl ⟨_, rfl, by decide⟩
  refine ⟨simple_pairMethod, hgenerics, by simp, hclauses, ?_⟩
  exact ((extract_constrained_iff simple_pairMethod hgenerics (by simp) hclauses).2.mpr
    ⟨hcut, by decide⟩).2

/-- **A clause may move the cut**: in front of one that does not end with a parenthesis the
tuple is taken for the parameter list. -/
theorem tuple_taken_for_parameters :
    pairMethod.Simple ∧ IsTidyClause "T : class"
      ∧ extract pairMethod.leading pairMethod.signature pairMethod.name.toList .method
        = ⟨"public (T, int) Pair<T>".toList, some "T a".toList⟩
      ∧ extract pairMethod.leading (pairMethod.signature ++ clauseChars ["T : class"])
          pairMethod.name.toList .method
        = ⟨"public".toList, some "T, int Pair<T>(T a) where T : class".toList⟩ := by
  have hclause : IsTidyClause "T : class" :=
    { ne_nil := by decide, trim_eq := by decide, notMem := by decide
      tidy := tidy_iff_normalize_eq.mpr (by decide) }
  refine ⟨simple_pairMethod, hclause, ?_, ?_⟩
  · rw [simple_pairMethod.extract_eq]
    decide
  · have hjoin := simple_pairMethod.joinWords_constrained (List.forall_mem_singleton.mpr hclause)
    unfold extract
    dsimp only
    rw [hjoin]
    decide

end Method

end TestScaffold
