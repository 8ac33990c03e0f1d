import TestScaffold.Proofs.Declaration.Peel
import TestScaffold.Proofs.Declaration.Written
import TestScaffold.Proofs.TypeExpr.RoundTrip
import TestScaffold.Text.Alphanumeric
/-!
# Identifiers and types over them

An identifier is a word of letters, digits and underscores other than `where`; in
the name of a type there may be full stops, too. The letters are those of all
scripts, so what an identifier does not hold – blanks, brackets, quotes – has to
be read off the table of letters (`isWordChar_of_isBlank`,
`isWordChar_of_mem_plainMarks`).

The text of a canonical type over such names is written (`Canonical.written`) and
no run of it is the word in front of clauses (`Canonical.where_notMem`). Both are
proved of `TypeText`, the texts that types and lists of types are printed as, by
induction on how the text is put together.
-/

namespace TestScaffold

open Scan Text Declaration

/-! ## Word characters -/

/-- The characters of identifiers. -/
def isWordChar (c : Char) : Bool :=
  isAlphanumeric c || c == '_'

/-- The characters that the readers of declarations look for. -/
def plainMarks : List Char :=
  ['<', '>', '[', ']', '(', ')', ',', '?', '"', '\'', '/', '=', ':', '@', '$', '.']

/-- **No mark is a word character.** -/
theorem isWordChar_of_mem_plainMarks : ∀ c ∈ plainMarks, isWordChar c = false := by
  decide +kernel

/-- The codes of the blanks. -/
def blankCodes : List Nat :=
  [9, 10, 11, 12, 13, 0x20, 0x85, 0xA0, 0x1680, 0x2000, 0x2001, 0x2002, 0x2003, 0x2004, 0x2005,
    0x2006, 0x2007, 0x2008, 0x2009, 0x200A, 0x2028, 0x2029, 0x202F, 0x205F, 0x3000]

theorem toNat_mem_blankCodes {c : Char} (h : isBlank c = true) : c.toNat ∈ blankCodes := by
  simp only [isBlank, Bool.or_eq_true, Bool.and_eq_true, decide_eq_true_eq, beq_iff_eq] at h
  simp only [blankCodes, List.mem_cons, List.not_mem_nil, or_false]
  omega

/-- **No blank is a word character.** -/
theorem isWordChar_of_isBlank {c : Char} (h : isBlank c = true) : isWordChar c = false := by
  have htable : ∀ n ∈ blankCodes,
      (alphanumericRanges.any fun r => r.1 ≤ n && n ≤ r.2) = false := by decide +kernel
  have hscore : c ≠ '_' := by
    rintro rfl
    exact absurd h (by decide)
  rw [isWordChar, beq_false_of_ne hscore, Bool.or_false]
  exact htable _ (toNat_mem_blankCodes h)

theorem ne_of_isWordChar {c d : Char} (hc : isWordChar c = true) (hd : d ∈ plainMarks) :
    c ≠ d := by
  rintro rfl
  rw [isWordChar_of_mem_plainMarks c hd] at hc
  exact Bool.noConfusion hc

theorem isBlank_of_isWordChar {c : Char} (hc : isWordChar c = true) : isBlank c = false := by
  rw [Bool.eq_false_iff]
  intro hb
  rw [isWordChar_of_isBlank hb] at hc
  exact Bool.noConfusion hc

/-! ## Identifiers -/

/-- **An identifier**: a word of letters, digits and underscores other than the word
in front of clauses. -/
structure IsIdentifier (name : String) : Prop where
  /-- It holds something. -/
  ne : name.toList ≠ []
  /-- It is not the word in front of clauses. -/
  ne_where : name ≠ "where"
  /-- Its characters are word characters. -/
  chars : ∀ c ∈ name.toList, isWordChar c = true

/-- **The name of a type**: an identifier that may hold full stops. -/
structure IsTypeIdentifier (name : String) : Prop where
  /-- It holds something. -/
  ne : name.toList ≠ []
  /-- It is not the word in front of clauses. -/
  ne_where : name ≠ "where"
  /-- Its characters are word characters and full stops. -/
  chars : ∀ c ∈ name.toList, isWordChar c = true ∨ c = '.'

instance : DecidablePred IsIdentifier := fun name =>
  decidable_of_iff (name.toList ≠ [] ∧ name ≠ "where" ∧ ∀ c ∈ name.toList, isWordChar c = true)
    ⟨fun h => ⟨h.1, h.2.1, h.2.2⟩, fun h => ⟨h.ne, h.ne_where, h.chars⟩⟩

instance : DecidablePred IsTypeIdentifier := fun name =>
  decidable_of_iff (name.toList ≠ [] ∧ name ≠ "where"
      ∧ ∀ c ∈ name.toList, isWordChar c = true ∨ c = '.')
    ⟨fun h => ⟨h.1, h.2.1, h.2.2⟩, fun h => ⟨h.ne, h.ne_where, h.chars⟩⟩

theorem IsIdentifier.isTypeIdentifier {name : String} (h : IsIdentifier name) :
    IsTypeIdentifier name :=
  ⟨h.ne, h.ne_where, fun c hc => .inl (h.chars c hc)⟩

namespace IsTypeIdentifier

variable {name : String}

/-- The name of a type holds no mark but full stops. -/
theorem ne_mark (h : IsTypeIdentifier name) {d : Char} (hd : d ∈ plainMarks) (hdot : d ≠ '.') :
    ∀ c ∈ name.toList, c ≠ d := by
  rintro c hc rfl
  rcases h.chars c hc with hword | rfl
  · exact ne_of_isWordChar hword hd rfl
  · exact hdot rfl

theorem isBlank_eq_false (h : IsTypeIdentifier name) : ∀ c ∈ name.toList, isBlank c = false := by
  intro c hc
  rcases h.chars c hc with hword | rfl
  · exact isBlank_of_isWordChar hword
  · decide

/-- The name of a type means nothing else in a type text. -/
theorem isTypeName (h : IsTypeIdentifier name) : IsTypeName name := by
  refine ⟨trim_eq_self_of_solid h.isBlank_eq_false, fun c hc => ?_⟩
  rw [Bool.eq_false_iff]
  intro hmark
  simp only [isTypeMark, isBracket, isOpening, isClosing, isQuote, Bool.or_eq_true,
    beq_iff_eq] at hmark
  have hne : ∀ d ∈ plainMarks, d ≠ '.' → c ≠ d := fun d hd hdot => h.ne_mark hd hdot c hc
  rcases hmark with (((((hm | hm) | hm) | (hm | hm) | hm) | hm | hm) | hm) | hm
    <;> exact hne _ (by decide) (by decide) hm

theorem written (h : IsTypeIdentifier name) : Written name.toList :=
  .of_solid h.ne fun c hc => ⟨h.isBlank_eq_false c hc, h.ne_mark (by decide) (by decide) c hc,
    h.ne_mark (by decide) (by decide) c hc⟩

theorem beginsPlainly (h : IsTypeIdentifier name) : BeginsPlainly name.toList := by
  obtain ⟨c, rest, hc⟩ := List.exists_cons_of_ne_nil h.ne
  have hmem : c ∈ name.toList := by
    rw [hc]
    exact List.mem_cons_self
  exact ⟨c, rest, hc, h.isBlank_eq_false c hmem, h.ne_mark (by decide) (by decide) c hmem,
    h.ne_mark (by decide) (by decide) c hmem⟩

theorem space_notMem (h : IsTypeIdentifier name) : ' ' ∉ name.toList := fun hmem =>
  absurd (h.isBlank_eq_false ' ' hmem) (by decide)

theorem where_notMem (h : IsTypeIdentifier name) : whereChars ∉ runs name.toList := by
  rw [runs_of_solid h.space_notMem, List.mem_singleton]
  exact fun he => h.ne_where (String.toList_inj.mp he.symm)

end IsTypeIdentifier

/-! ## Printed types -/

/-- **The texts types are printed as**, and lists of them with commas. -/
inductive TypeText : List Char → Prop
  | name {n : String} (hn : IsTypeIdentifier n) : TypeText n.toList
  | generic {n : String} {s : List Char} (hn : IsTypeIdentifier n) (hs : TypeText s) :
      TypeText (n.toList ++ ('<' :: (s ++ ['>'])))
  | tuple {s : List Char} (hs : TypeText s) : TypeText ('(' :: (s ++ [')']))
  | nullable {s : List Char} (hs : TypeText s) : TypeText (s ++ ['?'])
  | rank {s : List Char} (hs : TypeText s) : TypeText (s ++ ['[', ']'])
  | comma {a b : List Char} (ha : TypeText a) (hb : TypeText b) :
      TypeText (a ++ ([',', ' '] ++ b))

namespace TypeText

/-- Printed types are written. -/
theorem written {s : List Char} (h : TypeText s) : Written s := by
  have hmark : ∀ {s : List Char} (m : List Char), Written m → m.head? ≠ some '(' →
      Written s → Written (s ++ m) := fun m hm hhead hs => hs.append hm hhead
  have hsolid : ∀ c : Char, isBlank c = false ∧ c ≠ '(' ∧ c ≠ '[' → Written [c] :=
    fun c hc => .of_solid (by simp) (by simpa using hc)
  have hrank : Written ['[', ']'] :=
    ⟨by simp, .of_solid (by decide), List.isChain_pair.mpr ⟨by decide, by decide⟩, by decide⟩
  induction h with
  | name hn => exact hn.written
  | generic hn _ ih =>
    have hgroup := (hmark ['>'] (hsolid '>' (by decide)) (by decide) ih).cons (.inl rfl)
    exact hmark _ hgroup (by simp) hn.written
  | tuple _ ih => exact (hmark [')'] (hsolid ')' (by decide)) (by decide) ih).cons (.inr rfl)
  | nullable _ ih => exact hmark ['?'] (hsolid '?' (by decide)) (by decide) ih
  | rank _ ih => exact hmark _ hrank (by decide) ih
  | comma _ _ iha ihb => exact iha.comma ihb

/-- A printed type holds no mark that no type needs. -/
theorem notMem {s : List Char} (h : TypeText s) {d : Char} (hd : d ∈ plainMarks)
    (hmark : d ∉ ['.', '<', '>', '(', ')', '[', ']', '?', ',', ' ']) : d ∉ s := by
  simp only [List.mem_cons, List.not_mem_nil, or_false, not_or] at hmark
  obtain ⟨hdot, h₁, h₂, h₃, h₄, h₅, h₆, h₇, h₈, h₉⟩ := hmark
  have hname : ∀ {n : String}, IsTypeIdentifier n → d ∉ n.toList := fun hn hmem =>
    hn.ne_mark hd hdot d hmem rfl
  induction h with
  | name hn => exact hname hn
  | generic hn _ ih => simp [hname hn, ih, h₁, h₂]
  | tuple _ ih => simp [ih, h₃, h₄]
  | nullable _ ih => simp [ih, h₇]
  | rank _ ih => simp [ih, h₅, h₆]
  | comma _ _ iha ihb => simp [iha, ihb, h₈, h₉]

/-- **No run of a printed type is the word in front of clauses.** -/
theorem where_notMem {s : List Char} (h : TypeText s) : whereChars ∉ runs s := by
  have hmark : ∀ {s : List Char} (m : List Char), ' ' ∉ m → (∃ c ∈ m, c ∉ whereChars) →
      whereChars ∉ runs s → whereChars ∉ runs (s ++ m) := fun m hm ⟨c, hc, hcw⟩ hs =>
    notMem_runs_append (notMem_runs_of_dropLast hs) hm hc hcw
  -- every mark lengthens a run by a character that the word does not hold
  induction h with
  | name hn => exact hn.where_notMem
  | @generic n s hn _ ih =>
    have hgroup := hmark ['>'] (by decide) ⟨'>', by decide⟩ ih
    have hspace : ' ' ∉ n.toList ++ ['<'] := by simp [hn.space_notMem]
    have := notMem_runs_prepend (c := '<') hgroup hspace (by simp) (by decide)
    simpa using this
  | tuple _ ih =>
    exact notMem_runs_prepend (a := ['(']) (c := '(')
      (hmark [')'] (by decide) ⟨')', by decide⟩ ih) (by decide) (by decide) (by decide)
  | nullable _ ih => exact hmark ['?'] (by decide) ⟨'?', by decide⟩ ih
  | rank _ ih => exact hmark ['[', ']'] (by decide) ⟨'[', by decide⟩ ih
  | @comma a b _ _ iha ihb =>
    have := notMem_runs_join (hmark [','] (by decide) ⟨',', by decide⟩ iha) ihb
    simpa using this

/-- Array ranks may stand behind a printed type. -/
theorem append_ranks {s : List Char} (h : TypeText s) (ranks : List ArrayRank) :
    TypeText (s ++ ranks.flatMap ArrayRank.chars) := by
  induction ranks generalizing s with
  | nil => rwa [List.flatMap_nil, List.append_nil]
  | cons rank ranks ih =>
    rw [List.flatMap_cons, ← List.append_assoc]
    refine ih ?_
    unfold ArrayRank.chars
    split
    · have := h.rank.nullable
      simpa using this
    · exact h.rank

/-- Marks may stand behind a printed type. -/
theorem append_markChars {s : List Char} (h : TypeText s) (nullable : Bool)
    (ranks : List ArrayRank) : TypeText (s ++ TypeExpr.markChars nullable ranks) := by
  unfold TypeExpr.markChars
  cases nullable with
  | false => exact h.append_ranks ranks
  | true =>
    have := h.nullable.append_ranks ranks
    simpa using this

end TypeText

namespace TypeExpr

/-- The text of a list of printed types is one. -/
theorem typeText_listChars {ts : List TypeExpr} (hne : ts ≠ [])
    (h : ∀ t ∈ ts, TypeText t.chars) : TypeText (listChars ts) :=
  intercalate_of_join (by simpa using hne) (List.forall_mem_map.mpr h)
    fun _ _ ha hb => ha.comma hb

namespace Canonical

variable {t : TypeExpr}

/-- **Types over identifiers are printed as type texts.** -/
theorem typeText (ht : Canonical IsTypeIdentifier t) : TypeText t.chars := by
  induction ht with
  | @named name ranks nullable hname =>
    rw [chars_named]
    exact (TypeText.name hname).append_markChars nullable ranks
  | @generic name arguments ranks nullable hname hne _ ih =>
    rw [chars_generic _ _ _ _ hne]
    exact (TypeText.generic hname (typeText_listChars hne ih)).append_markChars nullable ranks
  | @tuple components ranks nullable hne _ ih =>
    rw [chars_tuple _ _ _ hne]
    exact (TypeText.tuple (typeText_listChars hne ih)).append_markChars nullable ranks

theorem written (ht : Canonical IsTypeIdentifier t) : Written t.chars :=
  ht.typeText.written

theorem where_notMem (ht : Canonical IsTypeIdentifier t) : whereChars ∉ runs t.chars :=
  ht.typeText.where_notMem

theorem isTypeName (ht : Canonical IsTypeIdentifier t) : Canonical IsTypeName t :=
  ht.mono fun _ hname => hname.isTypeName

theorem beginsPlainly (ht : Canonical IsTypeIdentifier t) : BeginsPlainly t.chars := by
  rcases ht.tuple_or_name with ⟨-, -, s, hs⟩ | ⟨-, hname, s, hs⟩
  · exact ⟨'(', s, hs, by decide, by decide, by decide⟩
  · rw [hs]
    exact hname.beginsPlainly.append s

/-- The text of a type keeps the delimiters of declarations inside its brackets. -/
theorem quiet_of_mark (ht : Canonical IsTypeIdentifier t) {d : Char}
    (hd : d = ' ' ∨ d = ',' ∨ d = '=' ∨ d = ':') : Quiet d t.chars := by
  refine ht.isTypeName.quiet_chars (by rintro rfl; exact absurd hd (by decide)) ?_
  rcases ht.tuple_or_name with ⟨-, hname, -⟩ | ⟨-, hname, -⟩
  · rw [hname]
    simp
  · rcases hd with rfl | rfl | rfl | rfl
    · exact hname.space_notMem
    all_goals exact fun hmem => hname.ne_mark (by decide) (by decide) _ hmem rfl

/-- The search for a parenthesis outside brackets passes the marks behind a type. -/
theorem skipped_markChars (nullable : Bool) (ranks : List ArrayRank) :
    Skipped '(' (markChars nullable ranks) := by
  have hmark : ∀ nullable : Bool, Skipped '(' (if nullable then ['?'] else []) := by
    intro nullable
    refine .of_plain (by decide) ?_
    cases nullable <;> decide
  refine (hmark nullable).append ?_
  induction ranks with
  | nil => exact .nil
  | cons rank ranks ih =>
    have hrank : Skipped '(' ('[' :: ([] ++ [']'])) :=
      .group (by decide) (by decide) .nil (by decide)
    rw [List.flatMap_cons, ArrayRank.chars_eq_group]
    exact (hrank.append (hmark rank.nullable)).append ih

/-- **The search for a parenthesis outside brackets passes a type** unless it is a
tuple. -/
theorem skipped_chars (ht : Canonical IsTypeIdentifier t) (htuple : t.isTuple = false) :
    Skipped '(' t.chars := by
  have hname : ∀ {n : String}, IsTypeIdentifier n → Skipped '(' n.toList := fun hn =>
    .of_plain (by decide) fun c hc => (isTypeMark_eq_false_iff.mp (hn.isTypeName.2 c hc)).1
  cases ht with
  | named hn =>
    rw [chars_named]
    exact (hname hn).append (skipped_markChars _ _)
  | generic hn hne harguments =>
    rw [chars_generic _ _ _ _ hne]
    refine ((hname hn).append (.group (by decide) (by decide) ?_ (by decide))).append
      (skipped_markChars _ _)
    exact (nested_listChars hne fun a ha => (harguments a ha).isTypeName).1
  | tuple hne _ => exact absurd htuple (by simp [isTuple, hne])

/-- A trimmed text of a type is read as that type. -/
theorem ofChars_chars (ht : Canonical IsTypeIdentifier t) : ofChars t.chars = t :=
  ht.isTypeName.ofChars_of_spaced _ ht.isTypeName.spaced_chars

end Canonical

/-! ## Names with generic arguments -/

/-- A name with generic arguments is written like a type. -/
theorem genericChars_eq_chars (name : String) (generics : List TypeExpr) :
    genericChars name generics = chars ⟨name, generics, [], false, []⟩ := by
  by_cases hne : generics = []
  · subst hne
    rw [chars_named, genericChars]
    simp [markChars]
  · rw [chars_generic _ _ _ _ hne, genericChars, if_neg (by simpa using hne)]
    simp [markChars]

/-- A name with canonical generic arguments is a canonical type. -/
theorem canonical_of_generics {p : String → Prop} {name : String} {generics : List TypeExpr}
    (hname : p name) (h : ∀ g ∈ generics, Canonical p g) :
    Canonical p ⟨name, generics, [], false, []⟩ := by
  by_cases hne : generics = []
  · subst hne
    exact .named hname
  · exact .generic hname hne h

end TypeExpr

end TestScaffold
