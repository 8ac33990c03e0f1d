import TestScaffold.Proofs.Scan.Segment
import TestScaffold.Proofs.Text.Spaced
import TestScaffold.TypeExpr.Printer
/-!
# Canonical types and their tokens

A type record can hold more than a type text can say: components beside generic
arguments, a name with a bracket in it. `Canonical p` singles out the types whose
every node is a name, a generic name or a tuple, with names that satisfy `p`;
`IsTypeName` is what reading needs of a name.

`tokens` are the words a type is written in. Its text holds them in order
(`spaced_chars`), and so does every text that differs from it in white space
between the tokens. The readers that cut such texts at commas and brackets need
to know that the text keeps them inside its own brackets: `Canonical.quiet` for
every spaced text and the comma, `Canonical.quiet_chars` for the printed text
and any other delimiter.
-/

namespace TestScaffold

open Scan Text

/-! ## Names -/

/-- The characters that mean something in a type text. -/
def isTypeMark (c : Char) : Bool :=
  isBracket c || isQuote c || c == ',' || c == '?'

/-- **A type name**: trimmed, perhaps empty, and free of the characters that mean
something in a type text. -/
def IsTypeName (name : String) : Prop :=
  Text.trim name.toList = name.toList ∧ ∀ c ∈ name.toList, isTypeMark c = false

instance : DecidablePred IsTypeName :=
  fun _ => inferInstanceAs (Decidable (_ ∧ _))

theorem isTypeMark_eq_false_iff {c : Char} :
    isTypeMark c = false ↔ isBracket c = false ∧ isQuote c = false ∧ c ≠ ',' ∧ c ≠ '?' := by
  simp [isTypeMark, and_assoc]

/-- No blank means something in a type text. -/
theorem isTypeMark_of_isBlank {c : Char} (h : isBlank c = true) : isTypeMark c = false := by
  rw [Bool.eq_false_iff]
  intro hmark
  simp only [isTypeMark, isBracket, isOpening, isClosing, isQuote, Bool.or_eq_true,
    beq_iff_eq] at hmark
  rcases hmark with (((((rfl | rfl) | rfl) | (rfl | rfl) | rfl) | rfl | rfl) | rfl) | rfl
    <;> exact absurd h (by decide)

namespace TypeExpr

/-! ## Canonical types -/

/-- **A canonical type**: every node is a name, a name with generic arguments or
a tuple, and every name satisfies `p`. -/
inductive Canonical (p : String → Prop) : TypeExpr → Prop
  | named {name : String} {ranks : List ArrayRank} {nullable : Bool} (hname : p name) :
      Canonical p ⟨name, [], ranks, nullable, []⟩
  | generic {name : String} {arguments : List TypeExpr} {ranks : List ArrayRank}
      {nullable : Bool} (hname : p name) (hne : arguments ≠ [])
      (harguments : ∀ a ∈ arguments, Canonical p a) :
      Canonical p ⟨name, arguments, ranks, nullable, []⟩
  | tuple {components : List TypeExpr} {ranks : List ArrayRank} {nullable : Bool}
      (hne : components ≠ []) (hcomponents : ∀ c ∈ components, Canonical p c) :
      Canonical p ⟨"", [], ranks, nullable, components⟩

/-- A weaker condition on the names is met all the more. -/
theorem Canonical.mono {p q : String → Prop} (hpq : ∀ name, p name → q name)
    {t : TypeExpr} (h : Canonical p t) : Canonical q t := by
  induction h with
  | named hname => exact .named (hpq _ hname)
  | generic hname hne _ ih => exact .generic (hpq _ hname) hne ih
  | tuple hne _ ih => exact .tuple hne ih

end TypeExpr

/-! ## Tokens -/

/-- The tokens of an array rank; its nullable mark is part of the second one. -/
def ArrayRank.tokens (rank : ArrayRank) : List (List Char) :=
  [['['], if rank.nullable then [']', '?'] else [']']]

namespace TypeExpr

/-- The tokens behind the name, generic list or tuple of a type. -/
def markTokens (nullable : Bool) (ranks : List ArrayRank) : List (List Char) :=
  (if nullable then [['?']] else []) ++ ranks.flatMap ArrayRank.tokens

mutual
/-- The words a type is written in. -/
def tokens : TypeExpr → List (List Char)
  | ⟨name, arguments, ranks, nullable, components⟩ =>
    (if !arguments.isEmpty then
        name.toList :: ['<'] :: (List.intercalate [[',']] (tokensOfAll arguments) ++ [['>']])
      else if !components.isEmpty then
        ['('] :: (List.intercalate [[',']] (tokensOfAll components) ++ [[')']])
      else [name.toList])
      ++ markTokens nullable ranks
/-- The words of some types. -/
def tokensOfAll : List TypeExpr → List (List (List Char))
  | [] => []
  | t :: ts => tokens t :: tokensOfAll ts
end

theorem tokensOfAll_eq_map (ts : List TypeExpr) : tokensOfAll ts = ts.map tokens := by
  induction ts with
  | nil => simp [tokensOfAll]
  | cons t ts ih => simp [tokensOfAll, ih]

/-- The tokens of types with commas between them. -/
def listTokens (ts : List TypeExpr) : List (List Char) :=
  List.intercalate [[',']] (ts.map tokens)

/-- The text behind the name, generic list or tuple of a type. -/
def markChars (nullable : Bool) (ranks : List ArrayRank) : List Char :=
  (if nullable then ['?'] else []) ++ ranks.flatMap ArrayRank.chars

section Shapes

variable (name : String) (ts : List TypeExpr) (ranks : List ArrayRank) (nullable : Bool)

theorem tokens_named :
    tokens ⟨name, [], ranks, nullable, []⟩ = [name.toList] ++ markTokens nullable ranks := by
  rw [tokens]
  rfl

theorem tokens_generic (hne : ts ≠ []) :
    tokens ⟨name, ts, ranks, nullable, []⟩
      = (name.toList :: ['<'] :: (listTokens ts ++ [['>']])) ++ markTokens nullable ranks := by
  rw [tokens, if_pos (by simp [hne]), tokensOfAll_eq_map, listTokens]

theorem tokens_tuple (hne : ts ≠ []) :
    tokens ⟨"", [], ranks, nullable, ts⟩
      = (['('] :: (listTokens ts ++ [[')']])) ++ markTokens nullable ranks := by
  rw [tokens, if_neg (by simp), if_pos (by simp [hne]), tokensOfAll_eq_map, listTokens]

theorem chars_named :
    chars ⟨name, [], ranks, nullable, []⟩ = name.toList ++ markChars nullable ranks := by
  rw [chars, markChars, List.append_assoc]
  rfl

theorem chars_generic (hne : ts ≠ []) :
    chars ⟨name, ts, ranks, nullable, []⟩
      = (name.toList ++ ('<' :: (listChars ts ++ ['>']))) ++ markChars nullable ranks := by
  rw [chars, if_pos (by simp [hne]), charsOfAll_eq_map, markChars, listChars]
  simp

theorem chars_tuple (hne : ts ≠ []) :
    chars ⟨"", [], ranks, nullable, ts⟩
      = ('(' :: (listChars ts ++ [')'])) ++ markChars nullable ranks := by
  rw [chars, if_neg (by simp), if_pos (by simp [hne]), charsOfAll_eq_map, markChars,
    listChars]
  simp

end Shapes

/-! ## The printed text is spaced -/

theorem spaced_markChars (nullable : Bool) (ranks : List ArrayRank) :
    Spaced (markTokens nullable ranks) (markChars nullable ranks) := by
  refine Spaced.append ?_ ?_
  · cases nullable with
    | false => exact .nil rfl
    | true => exact .token ['?']
  · induction ranks with
    | nil => exact .nil rfl
    | cons rank ranks ih =>
      have hrank : Spaced rank.tokens rank.chars := by
        obtain ⟨nullable⟩ := rank
        cases nullable with
        | false => exact (Spaced.token ['[']).append (Spaced.token [']'])
        | true => exact (Spaced.token ['[']).append (Spaced.token [']', '?'])
      exact hrank.append ih

theorem spaced_listChars {ts : List TypeExpr} (h : ∀ t ∈ ts, Spaced t.tokens t.chars) :
    Spaced (listTokens ts) (listChars ts) := by
  have hblank : isBlankText [' '] = true := rfl
  exact Spaced.intercalate hblank h

/-- **The text of a canonical type holds its tokens.** -/
theorem Canonical.spaced_chars {p : String → Prop} {t : TypeExpr} (h : Canonical p t) :
    Spaced t.tokens t.chars := by
  induction h with
  | @named name ranks nullable _ =>
    rw [tokens_named, chars_named]
    exact (Spaced.token _).append (spaced_markChars nullable ranks)
  | @generic name arguments ranks nullable _ hne _ ih =>
    rw [tokens_generic _ _ _ _ hne, chars_generic _ _ _ _ hne]
    refine Spaced.append ?_ (spaced_markChars nullable ranks)
    exact (Spaced.token _).append
      ((Spaced.token ['<']).append ((spaced_listChars ih).append (Spaced.token ['>'])))
  | @tuple components ranks nullable hne _ ih =>
    rw [tokens_tuple _ _ _ hne, chars_tuple _ _ _ hne]
    refine Spaced.append ?_ (spaced_markChars nullable ranks)
    exact (Spaced.token ['(']).append ((spaced_listChars ih).append (Spaced.token [')']))

/-! ## Tokens are trimmed -/

theorem trim_markTokens (nullable : Bool) (ranks : List ArrayRank) :
    ∀ w ∈ markTokens nullable ranks, Text.trim w = w := by
  rw [markTokens, List.forall_mem_append]
  refine ⟨?_, ?_⟩
  · cases nullable <;> decide
  · intro w hw
    obtain ⟨⟨marked⟩, -, hw⟩ := List.mem_flatMap.mp hw
    have hrank : ∀ w ∈ (ArrayRank.mk marked).tokens, Text.trim w = w := by
      cases marked <;> decide
    exact hrank w hw

theorem trim_listTokens {ts : List TypeExpr} (hne : ts ≠ [])
    (h : ∀ t ∈ ts, ∀ w ∈ t.tokens, Text.trim w = w) :
    ∀ w ∈ listTokens ts, Text.trim w = w := by
  refine intercalate_of_join (P := fun ws => ∀ w ∈ ws, Text.trim w = w) (by simpa using hne)
    (by simpa using h) ?_
  intro a b ha hb
  rw [List.forall_mem_append, List.forall_mem_append, List.forall_mem_singleton]
  exact ⟨ha, by decide, hb⟩

/-- **Every token of a canonical type is trimmed.** -/
theorem Canonical.trim_tokens {t : TypeExpr} (ht : Canonical IsTypeName t) :
    ∀ w ∈ t.tokens, Text.trim w = w := by
  induction ht with
  | @named name ranks nullable hname =>
    rw [tokens_named, List.forall_mem_append, List.forall_mem_singleton]
    exact ⟨hname.1, trim_markTokens nullable ranks⟩
  | @generic name arguments ranks nullable hname hne _ ih =>
    rw [tokens_generic _ _ _ _ hne, List.forall_mem_append, List.forall_mem_cons,
      List.forall_mem_cons, List.forall_mem_append, List.forall_mem_singleton]
    exact ⟨⟨hname.1, by decide, trim_listTokens hne ih, by decide⟩,
      trim_markTokens nullable ranks⟩
  | @tuple components ranks nullable hne _ ih =>
    rw [tokens_tuple _ _ _ hne, List.forall_mem_append, List.forall_mem_cons,
      List.forall_mem_append, List.forall_mem_singleton]
    exact ⟨⟨by decide, trim_listTokens hne ih, by decide⟩, trim_markTokens nullable ranks⟩

/-- **How a canonical type begins**: a tuple with a parenthesis and without a name,
any other type with its name. -/
theorem Canonical.tuple_or_name {p : String → Prop} {t : TypeExpr} (ht : Canonical p t) :
    (t.isTuple = true ∧ t.name = "" ∧ ∃ s, t.chars = '(' :: s)
      ∨ (t.isTuple = false ∧ p t.name ∧ ∃ s, t.chars = t.name.toList ++ s) := by
  cases ht with
  | @named name ranks nullable hname =>
    exact .inr ⟨rfl, hname, _, chars_named _ _ _⟩
  | @generic name arguments ranks nullable hname hne _ =>
    refine .inr ⟨rfl, hname, '<' :: (listChars arguments ++ ['>']) ++ markChars nullable ranks, ?_⟩
    rw [chars_generic _ _ _ _ hne, List.append_assoc]
  | @tuple components ranks nullable hne _ =>
    refine .inl ⟨by simp [isTuple, hne], rfl, _, chars_tuple _ _ _ hne⟩

end TypeExpr

/-! ## Types are quiet -/

section Quiet

variable {d : Char}

/-- Blanks are quiet. -/
theorem quiet_of_blank {b : List Char} (hb : isBlankText b = true)
    (hd : isBlank d = false) : Quiet d b := by
  refine .of_plain fun c hc => ?_
  have hblank := isBlankText_iff.mp hb c hc
  obtain ⟨hbracket, hquote, -⟩ := isTypeMark_eq_false_iff.mp (isTypeMark_of_isBlank hblank)
  refine ⟨hbracket, hquote, ?_⟩
  rintro rfl
  rw [hd] at hblank
  exact Bool.noConfusion hblank

/-- A type name that does not hold the delimiter is quiet. -/
theorem IsTypeName.quiet {name : String} (h : IsTypeName name) (hd : d ∉ name.toList) :
    Quiet d name.toList := by
  refine .of_plain fun c hc => ?_
  obtain ⟨hbracket, hquote, -⟩ := isTypeMark_eq_false_iff.mp (h.2 c hc)
  exact ⟨hbracket, hquote, fun he => hd (he ▸ hc)⟩

theorem IsTypeName.comma_notMem {name : String} (h : IsTypeName name) :
    ',' ∉ name.toList := fun hc =>
  (isTypeMark_eq_false_iff.mp (h.2 _ hc)).2.2.1 rfl

/-- The nullable mark of a type or of a rank is quiet. -/
theorem quiet_nullable (hd : d ≠ '?') (nullable : Bool) :
    Quiet d (if nullable then ['?'] else []) := by
  refine .of_plain fun c hc => ?_
  have hc : c = '?' := by
    cases nullable with
    | false => simp at hc
    | true => simpa using hc
  subst hc
  exact ⟨by decide, by decide, hd.symm⟩

/-- **A spaced array rank** has blanks around and inside its brackets. -/
theorem ArrayRank.exists_of_spaced {rank : ArrayRank} {s : List Char}
    (h : Spaced rank.tokens s) :
    ∃ a x b, isBlankText a = true ∧ isBlankText x = true ∧ isBlankText b = true
      ∧ s = a ++ ('[' :: (x ++ [']']) ++ ((if rank.nullable then ['?'] else []) ++ b)) := by
  have hgroup : Spaced (['['] :: ([] ++ [if rank.nullable then [']', '?'] else [']']])) s := h
  obtain ⟨a, x, b, ha, hx, hb, rfl⟩ := hgroup.exists_of_group
  refine ⟨a, x, b, ha, hx.blank_of_nil, hb, ?_⟩
  cases rank.nullable <;> simp

theorem ArrayRank.quiet_of_spaced (hd : d ≠ '?') (hblank : isBlank d = false)
    {rank : ArrayRank} {s : List Char} (h : Spaced rank.tokens s) : Quiet d s := by
  obtain ⟨a, x, b, ha, hx, hb, rfl⟩ := ArrayRank.exists_of_spaced h
  have hinside := quiet_of_blank hx hblank
  exact (quiet_of_blank ha hblank).append
    ((Quiet.group (by decide) hinside.nested hinside.unquoted).append
      ((quiet_nullable hd _).append (quiet_of_blank hb hblank)))

namespace TypeExpr

theorem quiet_of_spaced_ranks (hd : d ≠ '?') (hblank : isBlank d = false)
    {ranks : List ArrayRank} {s : List Char}
    (h : Spaced (ranks.flatMap ArrayRank.tokens) s) : Quiet d s := by
  induction ranks generalizing s with
  | nil => exact quiet_of_blank h.blank_of_nil hblank
  | cons rank ranks ih =>
    rw [List.flatMap_cons] at h
    obtain ⟨x, y, hx, hy, rfl⟩ := h.exists_of_append
    exact (rank.quiet_of_spaced hd hblank hx).append (ih hy)

theorem quiet_of_spaced_markTokens (hd : d ≠ '?') (hblank : isBlank d = false)
    {nullable : Bool} {ranks : List ArrayRank} {s : List Char}
    (h : Spaced (markTokens nullable ranks) s) : Quiet d s := by
  obtain ⟨a, b, ha, hb, rfl⟩ := h.exists_of_append
  refine .append ?_ (quiet_of_spaced_ranks hd hblank hb)
  cases nullable with
  | false => exact quiet_of_blank ha.blank_of_nil hblank
  | true =>
    obtain ⟨x, y, hx, hy, rfl⟩ := ha.exists_of_singleton
    exact (quiet_of_blank hx hblank).append
      ((quiet_nullable hd true).append (quiet_of_blank hy hblank))

/-- **A spaced list of quiet types** is properly nested and free of quotes. -/
theorem nested_of_spaced_list {ts : List TypeExpr} (hne : ts ≠ [])
    (h : ∀ t ∈ ts, ∀ s, Spaced t.tokens s → Quiet ',' s) {s : List Char}
    (hs : Spaced (listTokens ts) s) : Nested s ∧ ∀ c ∈ s, isQuote c = false := by
  obtain ⟨pieces, hpieces, rfl⟩ := hs.exists_of_intercalate hne
  have hquiet : ∀ piece ∈ pieces, Quiet ',' piece := by
    clear hs hne
    induction hpieces with
    | nil => simp
    | @cons t piece ts pieces ht _ ih =>
      rw [List.forall_mem_cons]
      exact ⟨h t List.mem_cons_self piece ht,
        ih fun t' ht' => h t' (List.mem_cons_of_mem t ht')⟩
  refine intercalate_of_join (P := fun a => Nested a ∧ ∀ c ∈ a, isQuote c = false) ?_
    (fun piece hp => ⟨(hquiet piece hp).nested, (hquiet piece hp).unquoted⟩) ?_
  · rintro rfl
    cases hpieces
    exact hne rfl
  · rintro a b ⟨ha, hqa⟩ ⟨hb, hqb⟩
    refine ⟨ha.join (x := ',') (by decide) hb, ?_⟩
    rw [List.forall_mem_append, List.forall_mem_append, List.forall_mem_singleton]
    exact ⟨hqa, by decide, hqb⟩

/-- **A spaced canonical type is quiet** as to commas. -/
theorem Canonical.quiet {t : TypeExpr} (ht : Canonical IsTypeName t) :
    ∀ s, Spaced t.tokens s → Quiet ',' s := by
  have hcomma : isBlank ',' = false := by decide
  -- the commas of a type stand inside its groups, between quiet types
  induction ht with
  | @named name ranks nullable hname =>
    intro s hs
    rw [tokens_named] at hs
    obtain ⟨x, y, hx, hy, rfl⟩ := hs.exists_of_append
    obtain ⟨a, b, ha, hb, rfl⟩ := hx.exists_of_singleton
    refine .append ?_ (quiet_of_spaced_markTokens (by decide) hcomma hy)
    exact (quiet_of_blank ha hcomma).append
      ((hname.quiet hname.comma_notMem).append (quiet_of_blank hb hcomma))
  | @generic name arguments ranks nullable hname hne _ ih =>
    intro s hs
    rw [tokens_generic _ _ _ _ hne] at hs
    obtain ⟨x, y, hx, hy, rfl⟩ := hs.exists_of_append
    refine .append ?_ (quiet_of_spaced_markTokens (by decide) hcomma hy)
    cases hx with
    | @cons a _ z _ ha hz =>
      obtain ⟨b, inner, e, hb, hinner, he, rfl⟩ := hz.exists_of_group
      obtain ⟨hnested, hunquoted⟩ := nested_of_spaced_list hne ih hinner
      have hgroup : Quiet ',' ('<' :: (inner ++ ['>'])) := .group (by decide) hnested hunquoted
      refine (quiet_of_blank ha hcomma).append ((hname.quiet hname.comma_notMem).append ?_)
      have := (quiet_of_blank hb hcomma).append (hgroup.append (quiet_of_blank he hcomma))
      simpa using this
  | @tuple components ranks nullable hne _ ih =>
    intro s hs
    rw [tokens_tuple _ _ _ hne] at hs
    obtain ⟨x, y, hx, hy, rfl⟩ := hs.exists_of_append
    refine .append ?_ (quiet_of_spaced_markTokens (by decide) hcomma hy)
    obtain ⟨a, inner, e, ha, hinner, he, rfl⟩ := hx.exists_of_group
    obtain ⟨hnested, hunquoted⟩ := nested_of_spaced_list hne ih hinner
    have hgroup : Quiet ',' ('(' :: (inner ++ [')'])) := .group (by decide) hnested hunquoted
    have := (quiet_of_blank ha hcomma).append (hgroup.append (quiet_of_blank he hcomma))
    simpa using this

/-- The text of a list of canonical types is properly nested and free of quotes. -/
theorem nested_listChars {ts : List TypeExpr} (hne : ts ≠ [])
    (h : ∀ t ∈ ts, Canonical IsTypeName t) :
    Nested (listChars ts) ∧ ∀ c ∈ listChars ts, isQuote c = false :=
  nested_of_spaced_list hne (fun t ht => (h t ht).quiet)
    (spaced_listChars fun t ht => (h t ht).spaced_chars)

/-- An array rank is a group of square brackets with nothing inside. -/
theorem ArrayRank.chars_eq_group (rank : ArrayRank) :
    rank.chars = '[' :: ([] ++ [']']) ++ (if rank.nullable then ['?'] else []) := by
  unfold ArrayRank.chars
  cases rank.nullable <;> rfl

theorem quiet_markChars (hd : d ≠ '?') (nullable : Bool) (ranks : List ArrayRank) :
    Quiet d (markChars nullable ranks) := by
  refine (quiet_nullable hd nullable).append ?_
  induction ranks with
  | nil => exact .of_plain (by simp)
  | cons rank ranks ih =>
    rw [List.flatMap_cons, ArrayRank.chars_eq_group]
    exact (((Quiet.group (by decide) .nil (by simp)).append (quiet_nullable hd _)).append ih)

/-- **The text of a canonical type keeps a delimiter inside brackets**, as long as
the name in front of them does not hold it. -/
theorem Canonical.quiet_chars {t : TypeExpr} (ht : Canonical IsTypeName t) (hd : d ≠ '?')
    (hname : d ∉ t.name.toList) : Quiet d t.chars := by
  cases ht with
  | @named name ranks nullable hn =>
    rw [chars_named]
    exact (hn.quiet hname).append (quiet_markChars hd nullable ranks)
  | @generic name arguments ranks nullable hn hne harguments =>
    obtain ⟨hnested, hunquoted⟩ := nested_listChars hne harguments
    rw [chars_generic _ _ _ _ hne]
    exact ((hn.quiet hname).append (.group (by decide) hnested hunquoted)).append
      (quiet_markChars hd nullable ranks)
  | @tuple components ranks nullable hne hcomponents =>
    obtain ⟨hnested, hunquoted⟩ := nested_listChars hne hcomponents
    rw [chars_tuple _ _ _ hne]
    exact (Quiet.group (by decide) hnested hunquoted).append
      (quiet_markChars hd nullable ranks)

end TypeExpr

end Quiet

end TestScaffold
