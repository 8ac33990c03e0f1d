import TestScaffold.Declaration.Peel
import TestScaffold.Proofs.Scan.Balance
import TestScaffold.Proofs.Scan.Segment
import TestScaffold.Proofs.Text.Search
/-!
# What peeling takes away

Each peeling function is described on the text it is meant for: attribute groups,
keywords or clauses, written the way a declaration writes them, in front of or
behind a rest that holds none of its kind. Peeling takes exactly these away
(`peelAttributes_groups`, `peelKeywords_append`, `peelConstraints_clauses`) and
nothing from a text without them (`peelAttributes_of_plain`,
`peelConstraints_eq_none`).

The three look at different things. Attribute groups are counted by square
brackets alone, so what they hold has to be balanced. A keyword is found
as a prefix with a space behind it, so the rest must not begin with one. A clause
is found by the word between two spaces, so that word must be none of the runs
in front of it.
-/

namespace TestScaffold.Declaration

open Scan Text

/-! ## Attributes -/

/-- **What is kept**: a character that neither begins a group, nor closes one, nor ends the
run of groups. -/
theorem peelGroups_kept {depth : Int} {c : Char} (hopen : c = '[' → depth ≠ 0)
    (hclose : c = ']' → depth ≠ 1) (hplain : depth = 0 → isBlank c = true ∨ c = ']')
    (since : List Char) (found : List String) (s : List Char) :
    peelGroups depth since found (c :: s)
      = peelGroups (depth + surplus [c]) (since ++ [c]) found s := by
  rw [peelGroups]
  by_cases hc : c = '['
  · subst hc
    rw [if_pos rfl, if_neg (hopen rfl), surplus_open]
  · rw [if_neg hc]
    by_cases hc' : c = ']'
    · subst hc'
      rw [if_pos rfl, if_neg (hclose rfl), surplus_close, Int.sub_eq_add_neg]
    · have hno : ¬ (depth = 0 ∧ isBlank c = false) := by
        rintro ⟨hdepth, hblank⟩
        simp [hblank, hc'] at hplain
        exact hplain hdepth
      rw [if_neg hc', if_neg hno, surplus_of_ne hc hc', Int.add_zero]

/-- **Inside a group everything is kept** up to the bracket that closes it. -/
theorem peelGroups_append_covered {depth : Int} {a : List Char} (ha : Covered depth a)
    (since : List Char) (found : List String) (s : List Char) :
    peelGroups (depth + 1) since found (a ++ s)
      = peelGroups (depth + 1 + surplus a) (since ++ a) found s := by
  induction a generalizing depth since with
  | nil => simp
  | cons c a ih =>
    obtain ⟨hdepth, ha⟩ := Covered.cons_iff.mp ha
    have hclose : c = ']' → depth + 1 ≠ 1 := by
      rintro rfl
      have := ha.nonneg
      rw [surplus_close] at this
      omega
    rw [List.cons_append, peelGroups_kept (fun _ => by omega) hclose (by omega),
      Int.add_right_comm, ih ha, List.append_assoc, List.singleton_append, surplus_cons c a]
    congr 1
    omega

/-- A group is taken away. -/
theorem peelGroups_group {a : List Char} (ha : Balanced a) (since : List Char)
    (found : List String) (s : List Char) :
    peelGroups 0 since found ('[' :: (a ++ ']' :: s))
      = peelGroups 0 [] (found ++ [String.ofList (Text.trim a)]) s := by
  have hinside := peelGroups_append_covered ha.covered [] found (']' :: s)
  rw [ha.settled, Int.zero_add, Int.add_zero, List.nil_append] at hinside
  rw [peelGroups, if_pos rfl, if_pos rfl, hinside, peelGroups, if_neg (by decide), if_pos rfl,
    if_pos rfl]

/-- A text **begins plainly** when neither a blank nor a square bracket begins
it. -/
def BeginsPlainly (s : List Char) : Prop :=
  ∃ c rest, s = c :: rest ∧ isBlank c = false ∧ c ≠ '[' ∧ c ≠ ']'

namespace BeginsPlainly

variable {s : List Char}

theorem ne_nil (h : BeginsPlainly s) : s ≠ [] := by
  obtain ⟨c, rest, rfl, -⟩ := h
  exact List.cons_ne_nil c rest

theorem append (h : BeginsPlainly s) (t : List Char) : BeginsPlainly (s ++ t) := by
  obtain ⟨c, rest, rfl, hc⟩ := h
  exact ⟨c, rest ++ t, rfl, hc⟩

theorem trimStart_eq (h : BeginsPlainly s) : trimStart s = s := by
  obtain ⟨c, rest, rfl, hc, -⟩ := h
  exact trimStart_eq_self_iff.mpr (by simpa using hc)

/-- Where a text begins plainly, there are no more groups. -/
theorem peelGroups_eq (h : BeginsPlainly s) (since : List Char) (found : List String) :
    peelGroups 0 since found s = (since ++ s, found) := by
  obtain ⟨c, rest, rfl, hc, hopen, hclose⟩ := h
  rw [peelGroups, if_neg hopen, if_neg hclose, if_pos ⟨rfl, hc⟩]

end BeginsPlainly

/-- **No attribute is peeled off a text that begins plainly.** -/
theorem peelAttributes_of_plain {s : List Char} (h : BeginsPlainly s)
    (htrim : Text.trim s = s) : peelAttributes s = ⟨s, none⟩ := by
  unfold peelAttributes
  split
  · rw [h.peelGroups_eq]
    dsimp only
    rw [List.nil_append, htrim]
    rfl
  · rfl

/-- Attribute groups with a space behind each. -/
def groupChars (attributes : List String) : List Char :=
  attributes.flatMap fun a => '[' :: (a.toList ++ [']', ' '])

@[simp] theorem groupChars_nil : groupChars [] = [] := rfl

theorem groupChars_cons (a : String) (attributes : List String) :
    groupChars (a :: attributes) = '[' :: (a.toList ++ ']' :: ' ' :: groupChars attributes) := by
  simp [groupChars]

theorem peelGroups_groupChars {attributes : List String}
    (h : ∀ a ∈ attributes, Text.trim a.toList = a.toList ∧ Nested a.toList)
    {s : List Char} (hs : BeginsPlainly s) (since : List Char)
    (hsince : isBlankText since = true) (found : List String) :
    ∃ b, isBlankText b = true
      ∧ peelGroups 0 since found (groupChars attributes ++ s)
        = (b ++ s, found ++ attributes) := by
  induction attributes generalizing since found with
  | nil =>
    refine ⟨since, hsince, ?_⟩
    rw [List.append_nil]
    exact hs.peelGroups_eq since found
  | cons a attributes ih =>
    obtain ⟨htrim, hnested⟩ := h a List.mem_cons_self
    obtain ⟨b, hb, hpeel⟩ := ih (fun a' ha' => h a' (List.mem_cons_of_mem a ha'))
      [' '] rfl (found ++ [a])
    refine ⟨b, hb, ?_⟩
    have hshape : groupChars (a :: attributes) ++ s
        = '[' :: (a.toList ++ ']' :: (' ' :: (groupChars attributes ++ s))) := by
      simp [groupChars_cons]
    rw [hshape, peelGroups_group hnested.balanced, peelGroups, if_neg (by decide),
      if_neg (by decide), if_neg (by decide), htrim, String.ofList_toList, List.nil_append, hpeel,
      List.append_assoc]
    rfl

/-- **The leading attribute groups are peeled off.** -/
theorem peelAttributes_groups {attributes : List String} (hne : attributes ≠ [])
    (h : ∀ a ∈ attributes, Text.trim a.toList = a.toList ∧ Nested a.toList)
    {s : List Char} (hs : BeginsPlainly s) :
    peelAttributes (groupChars attributes ++ s) = ⟨Text.trim s, some attributes⟩ := by
  obtain ⟨b, hb, hpeel⟩ := peelGroups_groupChars h hs [] rfl []
  have hcontains : (groupChars attributes ++ s).contains '[' = true := by
    obtain ⟨a, attributes, rfl⟩ := List.exists_cons_of_ne_nil hne
    simp [groupChars_cons]
  unfold peelAttributes
  rw [if_pos hcontains, hpeel]
  dsimp only
  rw [trim_blank_append hb, List.nil_append, nonEmpty?, if_neg (by simpa using hne)]

/-! ## Keywords -/

/-- Words without blanks. -/
def IsVocabulary (words : List String) : Prop :=
  ∀ w ∈ words, w.toList ≠ [] ∧ ∀ c ∈ w.toList, isBlank c = false

instance (words : List String) : Decidable (IsVocabulary words) :=
  inferInstanceAs (Decidable (∀ w ∈ words, _))

/-- Words with a space behind each. -/
def wordChars (words : List String) : List Char :=
  words.flatMap fun w => w.toList ++ [' ']

@[simp] theorem wordChars_nil : wordChars [] = [] := rfl

theorem wordChars_cons (k : String) (ks : List String) :
    wordChars (k :: ks) = k.toList ++ ' ' :: wordChars ks := by
  simp [wordChars]

/-- Words and a text behind them, with spaces between. -/
theorem intercalate_words (ks : List String) (s : List Char) :
    List.intercalate [' '] (ks.map String.toList ++ [s]) = wordChars ks ++ s := by
  rw [intercalate_append (by simp), List.intercalate_singleton, List.flatMap_map, wordChars]

/-- Words with spaces between them and one behind them. -/
theorem intercalate_append_space {ks : List String} (hne : ks ≠ []) :
    List.intercalate [' '] (ks.map String.toList) ++ [' '] = wordChars ks := by
  rw [intercalate_append_sep (by simpa using hne), List.flatMap_map, wordChars]

/-- Two texts cut at their first space are cut alike. -/
theorem append_space_inj {a b s t : List Char} (ha : ' ' ∉ a) (hb : ' ' ∉ b)
    (h : a ++ ' ' :: s = b ++ ' ' :: t) : a = b ∧ s = t := by
  have hcut : ∀ {x : List Char}, ' ' ∉ x → ∀ y,
      cutWhere? (· == ' ') (x ++ ' ' :: y) = some (x, y) := fun hx y =>
    cutWhere?_append_cons (fun c hc => beq_false_of_ne fun he => hx (he ▸ hc)) rfl
  have hboth := hcut ha s
  rw [h, hcut hb t] at hboth
  obtain ⟨rfl, rfl⟩ := Prod.mk.inj (Option.some.inj hboth)
  exact ⟨rfl, rfl⟩

section Keywords

variable {vocabulary : List String}

theorem IsVocabulary.space_notMem (h : IsVocabulary vocabulary) {w : String}
    (hw : w ∈ vocabulary) : ' ' ∉ w.toList := fun hmem =>
  absurd ((h w hw).2 ' ' hmem) (by decide)

theorem leadingWord?_eq_none_iff {s : List Char} :
    leadingWord? vocabulary s = none ↔ ∀ w ∈ vocabulary, ¬ w.toList ++ [' '] <+: s := by
  rw [leadingWord?, List.findSome?_eq_none_iff]
  simp only [Option.map_eq_none_iff, stripStart?_eq_none_iff]

/-- The word that leads a text is found. -/
theorem leadingWord?_append (hv : IsVocabulary vocabulary) {w : String}
    (hw : w ∈ vocabulary) (s : List Char) :
    leadingWord? vocabulary (w.toList ++ ' ' :: s) = some (w, s) := by
  cases hlead : leadingWord? vocabulary (w.toList ++ ' ' :: s) with
  | none => exact absurd ⟨s, by simp⟩ (leadingWord?_eq_none_iff.mp hlead w hw)
  | some found =>
    obtain ⟨v, hvmem, hstrip⟩ := List.exists_of_findSome?_eq_some hlead
    obtain ⟨rest, hrest, rfl⟩ := Option.map_eq_some_iff.mp hstrip
    have heq := stripStart?_eq_some_iff.mp hrest
    rw [List.append_assoc, List.singleton_append] at heq
    obtain ⟨hword, hrest⟩ :=
      append_space_inj (hv.space_notMem hw) (hv.space_notMem hvmem) heq
    rw [String.toList_inj.mp hword, hrest]

/-- **A text that keeps its spaces inside brackets begins with no word**, unless it is
that word. -/
theorem not_prefix_of_quiet {w t s : List Char} (hspace : ' ' ∉ w)
    (hplain : ∀ c ∈ w, isBracket c = false) (ht : Quiet ' ' t) (hne : t ≠ w)
    (hs : s = [] ∨ ∃ s', s = ' ' :: s') : ¬ w ++ [' '] <+: t ++ s := by
  rintro ⟨r, hr⟩
  rw [List.append_assoc, List.singleton_append] at hr
  -- up to its first space `t` would be `w`, but that space stands behind a bracket
  obtain ⟨a, ha, hta⟩ := exists_first_run t
  have hbracket : ∀ b, t ≠ w ++ ' ' :: b := by
    rintro b rfl
    obtain ⟨c, hc, hcb⟩ := ht.exists_bracket (by decide) (by decide)
    rw [hplain c hc] at hcb
    exact Bool.noConfusion hcb
  rcases hta with rfl | ⟨b, rfl⟩
  · rcases hs with rfl | ⟨s', rfl⟩
    · rw [List.append_nil] at hr
      exact hbracket r hr.symm
    · exact hne (append_space_inj hspace ha hr).1.symm
  · rw [List.append_assoc, List.cons_append] at hr
    exact hbracket b (by rw [(append_space_inj hspace ha hr).1])

theorem leadingWord?_of_quiet (hv : IsVocabulary vocabulary)
    (hplain : ∀ w ∈ vocabulary, ∀ c ∈ w.toList, isBracket c = false) {t : List Char}
    (ht : Quiet ' ' t) (hne : ∀ w ∈ vocabulary, t ≠ w.toList) (s : List Char) :
    leadingWord? vocabulary (t ++ ' ' :: s) = none :=
  leadingWord?_eq_none_iff.mpr fun w hw =>
    not_prefix_of_quiet (hv.space_notMem hw) (hplain w hw) ht (hne w hw) (.inr ⟨s, rfl⟩)

/-- Words in front of a text that begins plainly begin plainly. -/
theorem beginsPlainly_wordChars_append {ks : List String} (hks : IsVocabulary ks)
    (hplain : ∀ w ∈ ks, ∀ c ∈ w.toList, isBracket c = false) {s : List Char}
    (hs : BeginsPlainly s) : BeginsPlainly (wordChars ks ++ s) := by
  cases ks with
  | nil => exact hs
  | cons k ks =>
    obtain ⟨hne, hblank⟩ := hks k List.mem_cons_self
    obtain ⟨c, rest, hc⟩ := List.exists_cons_of_ne_nil hne
    have hmem : c ∈ k.toList := by
      rw [hc]
      exact List.mem_cons_self
    have hb := hplain k List.mem_cons_self c hmem
    refine ⟨c, rest ++ ' ' :: (wordChars ks ++ s), ?_, hblank c hmem, ?_, ?_⟩
    · simp [wordChars_cons, hc]
    all_goals
      rintro rfl
      exact absurd hb (by decide)

/-- Words and a trimmed text behind them are trimmed. -/
theorem trim_wordChars_append {ks : List String} (hks : IsVocabulary ks) {s : List Char}
    (hs : Text.trim s = s) (hne : s ≠ []) :
    Text.trim (wordChars ks ++ s) = wordChars ks ++ s := by
  cases ks with
  | nil => exact hs
  | cons k ks =>
    obtain ⟨hkne, hk⟩ := hks k List.mem_cons_self
    have hshape : wordChars (k :: ks) ++ s = k.toList ++ (' ' :: wordChars ks ++ s) := by
      rw [wordChars_cons, List.append_assoc]
    rw [hshape]
    exact trim_eq_self_append (trim_eq_self_of_solid hk) hs hkne hne

theorem peelWords_append (hv : IsVocabulary vocabulary) {ks : List String}
    (hks : ks ⊆ vocabulary) {s : List Char} (hs : Text.trim s = s) (hne : s ≠ [])
    (hlead : leadingWord? vocabulary s = none) :
    peelWords vocabulary (wordChars ks ++ s) = (ks, s) := by
  induction ks with
  | nil =>
    rw [peelWords]
    split
    · next h =>
      rw [wordChars_nil, List.nil_append, hlead] at h
      exact absurd h (by simp)
    · rfl
  | cons k ks ih =>
    obtain ⟨hk, hks⟩ := List.cons_subset.mp hks
    have hshape : wordChars (k :: ks) ++ s = k.toList ++ ' ' :: (wordChars ks ++ s) := by
      rw [wordChars_cons, List.append_assoc, List.cons_append]
    have hfind := leadingWord?_append hv hk (wordChars ks ++ s)
    rw [hshape, peelWords]
    split
    · next word after h =>
      rw [hfind] at h
      obtain ⟨rfl, rfl⟩ := Prod.mk.inj (Option.some.inj h)
      rw [trim_wordChars_append (fun w hw => hv w (hks hw)) hs hne, ih hks]
    · next h =>
      rw [hfind] at h
      exact absurd h (by simp)

/-- **The leading keywords are peeled off.** -/
theorem peelKeywords_append (hv : IsVocabulary vocabulary) {ks : List String}
    (hks : ks ⊆ vocabulary) {s : List Char} (hs : Text.trim s = s) (hne : s ≠ [])
    (hlead : leadingWord? vocabulary s = none) :
    peelKeywords vocabulary (wordChars ks ++ s) = ⟨s, nonEmpty? ks⟩ := by
  unfold peelKeywords
  rw [trim_wordChars_append (fun w hw => hv w (hks hw)) hs hne,
    peelWords_append hv hks hs hne hlead]

/-- **Modifiers**, when there are any: some words of the vocabulary. -/
def AreModifiers (vocabulary : List String) (keywords : Option (List String)) : Prop :=
  ∀ ks ∈ keywords, ks ≠ [] ∧ ks ⊆ vocabulary

instance (vocabulary : List String) (keywords : Option (List String)) :
    Decidable (AreModifiers vocabulary keywords) :=
  inferInstanceAs (Decidable (∀ ks ∈ keywords, _))

theorem AreModifiers.subset {keywords : Option (List String)}
    (h : AreModifiers vocabulary keywords) : keywords.getD [] ⊆ vocabulary := by
  cases keywords with
  | none => simp
  | some ks => exact (h ks rfl).2

/-- **Modifiers are peeled off** as they were written. -/
theorem peelKeywords_eq (hv : IsVocabulary vocabulary) {keywords : Option (List String)}
    (hks : AreModifiers vocabulary keywords) {s : List Char} (hs : Text.trim s = s)
    (hne : s ≠ []) (hlead : leadingWord? vocabulary s = none) :
    peelKeywords vocabulary (wordChars (keywords.getD []) ++ s) = ⟨s, keywords⟩ := by
  rw [peelKeywords_append hv hks.subset hs hne hlead]
  cases keywords with
  | none => rfl
  | some ks => rw [Option.getD_some, nonEmpty?, if_neg (by simpa using (hks ks rfl).1)]

end Keywords

/-! ## Constraints -/

/-- The word in front of each clause, without the spaces. -/
def whereChars : List Char :=
  "where".toList

theorem whereWord_eq : whereWord = fenced whereChars := by decide

theorem space_notMem_whereChars : ' ' ∉ whereChars := by decide

/-- **No clause is peeled off a text without the word.** -/
theorem peelConstraints_eq_none {s : List Char} (h : whereChars ∉ (runs s).dropLast) :
    peelConstraints s = ⟨Text.trim s, none⟩ := by
  unfold peelConstraints
  rw [whereWord_eq, cutAt?_fenced_eq_none space_notMem_whereChars h]

/-- Clauses with the word in front of each. -/
def clauseChars (clauses : List String) : List Char :=
  clauses.flatMap fun c => whereWord ++ c.toList

@[simp] theorem clauseChars_nil : clauseChars [] = [] := rfl

theorem clauseChars_cons (c : String) (clauses : List String) :
    clauseChars (c :: clauses) = fenced whereChars ++ (c.toList ++ clauseChars clauses) := by
  rw [clauseChars, List.flatMap_cons, whereWord_eq, List.append_assoc, clauseChars, whereWord_eq]

/-- **A clause**: a trimmed text that holds something, but not the word in front of
clauses. -/
structure IsClause (c : String) : Prop where
  /-- It holds something. -/
  ne_nil : c.toList ≠ []
  /-- Neither end is blank. -/
  trim_eq : Text.trim c.toList = c.toList
  /-- No run of it is the word. -/
  notMem : whereChars ∉ runs c.toList

/-- **Clauses are split** off a text that may only begin with the word. -/
theorem splitAt_append_clauseChars {a : List Char} (ha : whereChars ∉ (runs a).tail)
    {clauses : List String} (h : ∀ c ∈ clauses, IsClause c) :
    Text.splitAt whereWord (a ++ clauseChars clauses) = a :: clauses.map String.toList := by
  have hne : whereWord ≠ [] := by decide
  induction clauses generalizing a with
  | nil =>
    have hnone : cutAt? whereWord a = none := by
      rw [whereWord_eq]
      exact cutAt?_fenced_eq_none_of_tail space_notMem_whereChars fun hmem =>
        ha (List.dropLast_subset _ hmem)
    rw [clauseChars_nil, List.append_nil, splitAt_eq hne, hnone]
    rfl
  | cons c clauses ih =>
    have hc := h c List.mem_cons_self
    rw [splitAt_eq hne, clauseChars_cons, whereWord_eq,
      cutAt?_fenced_of_tail space_notMem_whereChars ha, List.map_cons]
    dsimp only
    rw [← whereWord_eq, ih (fun hmem => hc.notMem (List.mem_of_mem_tail hmem))
      fun d hd => h d (List.mem_cons_of_mem c hd)]

theorem splitAt_clauseChars {c : String} {clauses : List String} (hc : IsClause c)
    (h : ∀ c ∈ clauses, IsClause c) :
    Text.splitAt whereWord (c.toList ++ clauseChars clauses)
      = (c :: clauses).map String.toList :=
  splitAt_append_clauseChars (fun hmem => hc.notMem (List.mem_of_mem_tail hmem)) h

/-- Tidy clauses behind a tidy text leave it tidy. -/
theorem tidy_append_clauseChars {clauses : List String}
    (h : ∀ c ∈ clauses, Tidy c.toList ∧ c.toList ≠ []) {s : List Char} (hs : Tidy s)
    (hne : s ≠ []) : Tidy (s ++ clauseChars clauses) := by
  induction clauses generalizing s with
  | nil => rwa [clauseChars_nil, List.append_nil]
  | cons c clauses ih =>
    obtain ⟨hc, hcne⟩ := h c List.mem_cons_self
    have hwhere : Tidy whereChars := .of_solid (by decide)
    have hclause : Tidy (s ++ ' ' :: (whereChars ++ ' ' :: c.toList)) :=
      hs.join (hwhere.join hc (by decide) hcne) hne (by simp)
    have hshape : s ++ clauseChars (c :: clauses)
        = (s ++ ' ' :: (whereChars ++ ' ' :: c.toList)) ++ clauseChars clauses := by
      simp [clauseChars_cons, fenced]
    rw [hshape]
    exact ih (fun c' hc' => h c' (List.mem_cons_of_mem c hc')) hclause (by simp)

/-- Clauses behind a trimmed text leave it trimmed. -/
theorem trim_append_clauseChars {a : List Char} (ha : Text.trim a = a) (hne : a ≠ [])
    {clauses : List String} (h : ∀ c ∈ clauses, IsClause c) :
    Text.trim (a ++ clauseChars clauses) = a ++ clauseChars clauses := by
  rcases List.eq_nil_or_concat clauses with rfl | ⟨cs, last, rfl⟩
  · rw [clauseChars_nil, List.append_nil, ha]
  · have hlast := h last (by simp)
    have hshape : clauseChars (cs ++ [last]) = (clauseChars cs ++ whereWord) ++ last.toList := by
      simp [clauseChars]
    rw [List.concat_eq_append, hshape]
    exact trim_eq_self_append ha hlast.trim_eq hne hlast.ne_nil

/-- **The trailing clauses are peeled off.** -/
theorem peelConstraints_clauses {s : List Char} (hs : whereChars ∉ runs s)
    {clauses : List String} (hne : clauses ≠ []) (h : ∀ c ∈ clauses, IsClause c) :
    peelConstraints (s ++ clauseChars clauses) = ⟨Text.trim s, some clauses⟩ := by
  obtain ⟨c, clauses, rfl⟩ := List.exists_cons_of_ne_nil hne
  have hc := h c List.mem_cons_self
  have hrest : ∀ d ∈ clauses, IsClause d := fun d hd => h d (List.mem_cons_of_mem c hd)
  have htrimmed : ∀ d ∈ c :: clauses, String.ofList (Text.trim d.toList) = d := fun d hd => by
    rw [(h d hd).trim_eq, String.ofList_toList]
  unfold peelConstraints
  rw [clauseChars_cons, whereWord_eq, cutAt?_fenced space_notMem_whereChars hs]
  dsimp only
  rw [trim_append_clauseChars hc.trim_eq hc.ne_nil hrest, ← whereWord_eq,
    splitAt_clauseChars hc hrest, if_neg (by simp [hc.ne_nil]), List.map_map]
  congr 2
  exact (List.map_congr_left htrimmed).trans (List.map_id _)

/-- **A text that ends with the word loses it to the clauses**: the first of them begins
with the word then. -/
theorem peelConstraints_of_where {s : List Char} (hs : whereChars ∉ runs s) {c : String}
    {clauses : List String} (hc : Tidy c.toList) (h : ∀ d ∈ c :: clauses, IsClause d) :
    peelConstraints (s ++ ' ' :: whereChars ++ clauseChars (c :: clauses))
      = ⟨Text.trim s, some (String.ofList (whereChars ++ ' ' :: c.toList) :: clauses)⟩ := by
  have hclause := h c List.mem_cons_self
  have hrest : ∀ d ∈ clauses, IsClause d := fun d hd => h d (List.mem_cons_of_mem c hd)
  have hword : Tidy (whereChars ++ ' ' :: c.toList) :=
    Tidy.join (.of_solid (by decide)) hc (by decide) hclause.ne_nil
  have htail : whereChars ∉ (runs (whereChars ++ ' ' :: c.toList)).tail := by
    rw [runs_append_space, runs_of_solid space_notMem_whereChars]
    exact hclause.notMem
  have hshape : s ++ ' ' :: whereChars ++ clauseChars (c :: clauses)
      = s ++ (fenced whereChars ++ ((whereChars ++ ' ' :: c.toList) ++ clauseChars clauses)) := by
    simp [clauseChars_cons, fenced]
  have htrim := trim_append_clauseChars hword.trim_eq (by simp) hrest
  have htrimmed : ∀ d ∈ clauses, String.ofList (Text.trim d.toList) = d := fun d hd => by
    rw [(hrest d hd).trim_eq, String.ofList_toList]
  unfold peelConstraints
  rw [hshape, whereWord_eq, cutAt?_fenced space_notMem_whereChars hs]
  dsimp only
  rw [htrim, ← whereWord_eq, splitAt_append_clauseChars htail hrest, if_neg (by simp),
    List.map_cons, hword.trim_eq, List.map_map]
  congr 3
  exact (List.map_congr_left htrimmed).trans (List.map_id _)

end TestScaffold.Declaration
