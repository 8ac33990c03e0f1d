import Mathlib.Data.Nat.Find
import TestScaffold.Declaration.Extract
import TestScaffold.Proofs.Declaration.Written
import TestScaffold.Proofs.Scan.Bracket
import TestScaffold.Proofs.Text.Spacing
/-!
# Where a declaration is cut

A declaration is cut twice: at the parenthesis that opens its parameter list and at the
one that closes it. The first is found by the name in front of it (`cutAtList?`), the
second by counting brackets. `ListEnds` says where the second should be found, in terms of
the brackets outside the literals, and `extract_of_listEnds` that `extract` cuts there
whenever the search for a closing bracket finds the reader's one. That is so as long as no
literal holds a bracket (`searches_of_bracketless_literals`).

Wherever the two cuts fall, they take the two parentheses and blanks away and nothing else
(`extract_loses_nothing`). That is so of every text, with brackets in literals or brackets
that are never closed.
-/

namespace TestScaffold.Declaration

open Scan Text

/-! ## The opening parenthesis -/

/-- What opens the parameter list ends in its parenthesis. -/
theorem listOpening_concat (signature name : List Char) :
    ∃ s, listOpening signature name = s ++ ['('] := by
  unfold listOpening
  dsimp only
  split
  · exact normalize_concat _ (by decide)
  · exact ⟨_, rfl⟩

/-- **The first cut loses the opening parenthesis and nothing else.** -/
theorem eq_of_cutAtList? {signature name text head rest : List Char}
    (h : cutAtList? (listOpening signature name) text = some (head, rest)) :
    text = head ++ '(' :: rest := by
  obtain ⟨s, hs⟩ := listOpening_concat signature name
  rw [hs, cutAtList?] at h
  cases hcut : cutAt? (s ++ ['(']) text with
  | none =>
    rw [hcut] at h
    exact (of_cutAtOpenFrom?_eq_some h).1
  | some cut =>
    obtain ⟨before, after⟩ := cut
    rw [hcut] at h
    simp only [List.dropLast_concat, Option.some.injEq, Prod.mk.injEq] at h
    obtain ⟨rfl, rfl⟩ := h
    simpa using eq_append_of_cutAt? hcut

/-- **The first cut is only missing** when the text holds neither what opens the list nor
a parenthesis at depth zero. -/
theorem cutAtList?_eq_none_iff {opening text : List Char} :
    cutAtList? opening text = none ↔ ¬ opening <:+: text ∧ findOpen? '(' text = none := by
  rw [← cutAt?_eq_none_iff, findOpen?, Option.map_eq_none_iff, cutAtList?]
  cases cutAt? opening text <;> simp

/-! ## The closing parenthesis -/

/-- **Where a parameter list ends.** The list opened at `start` goes on with `rest`: the
text `inner` up to the first bracket that closes as many levels as have been opened, and
`tail` behind it. A list that is never closed takes all of the rest. -/
def ListEnds (shown : List (Nat × Char)) (start : Nat) (rest inner tail : List Char) : Prop :=
  (∃ c, rest = inner ++ c :: tail
      ∧ IsLeast {o | ClosesAt shown start o} (start + 1 + byteLength inner))
    ∨ (rest = inner ∧ tail = [] ∧ ∀ o, ¬ClosesAt shown start o)

/-- The text of a parameter list and of what stands behind it. -/
def listText (inner tail : List Char) : List Char :=
  if (trim tail).isEmpty then trim inner else trim inner ++ ' ' :: trim tail

section Cuts

variable {leading signature name head rest : List Char} {kind : Kind}

/-- **A declaration without a first cut** is not cut at all. -/
theorem extract_of_uncut (hkind : kind ≠ .classLike)
    (hcut : cutAtList? (listOpening signature name) (joinWords (clean leading) signature)
      = none) :
    extract leading signature name kind = ⟨joinWords (clean leading) signature, none⟩ := by
  cases kind with
  | classLike => exact absurd rfl hkind
  | constructor | method =>
    unfold extract
    dsimp only
    rw [hcut]

/-- **A declaration is cut a second time** where the level ends that the first cut
opened. -/
theorem extract_of_cuts (hkind : kind ≠ .classLike)
    (hcut : cutAtList? (listOpening signature name) (joinWords (clean leading) signature)
      = some (head, rest)) {inner tail : List Char}
    (hclose : (cutAtClose? 1 rest).getD (rest, []) = (inner, tail)) :
    extract leading signature name kind = ⟨trim head, some (listText inner tail)⟩ := by
  cases kind with
  | classLike => exact absurd rfl hkind
  | constructor | method =>
    unfold extract
    dsimp only
    rw [hcut]
    dsimp only
    rw [hclose]
    rfl

end Cuts

/-- **A declaration is cut where the search for the closing bracket says.** -/
theorem extract_of_listEnds {leading signature name head rest : List Char} {kind : Kind}
    (hkind : kind ≠ .classLike)
    (hcut : cutAtList? (listOpening signature name) (joinWords (clean leading) signature)
      = some (head, rest)) {shown : List (Nat × Char)}
    (hclose : ∀ o, closingBracket? (head ++ '(' :: rest) (byteLength head) = some o ↔
      IsLeast {o | ClosesAt shown (byteLength head) o} o) :
    ∃ inner tail, ListEnds shown (byteLength head) rest inner tail
      ∧ extract leading signature name kind = ⟨trim head, some (listText inner tail)⟩ := by
  have hparen : '(' ∈ openingBrackets := by decide
  rw [closingBracket?_append hparen] at hclose
  cases hfound : cutAtClose? 1 rest with
  | none =>
    rw [hfound] at hclose
    have hget : (cutAtClose? 1 rest).getD (rest, []) = (rest, []) := by rw [hfound]; rfl
    refine ⟨rest, [], .inr ⟨rfl, rfl, fun o ho => ?_⟩, extract_of_cuts hkind hcut hget⟩
    -- of the places that close the level one would be the first
    classical
    have hleast : IsLeast {o | ClosesAt shown (byteLength head) o} (Nat.find ⟨o, ho⟩) :=
      ⟨Nat.find_spec ⟨o, ho⟩, fun _ hp => Nat.find_min' ⟨o, ho⟩ hp⟩
    exact absurd ((hclose _).mpr hleast) (by simp)
  | some cut =>
    obtain ⟨inner, tail⟩ := cut
    rw [hfound] at hclose
    have hget : (cutAtClose? 1 rest).getD (rest, []) = (inner, tail) := by rw [hfound]; rfl
    obtain ⟨c, -, hrest, -, -⟩ := of_cutAtClose?_eq_some hfound
    exact ⟨inner, tail, .inl ⟨c, hrest, (hclose _).mp rfl⟩, extract_of_cuts hkind hcut hget⟩

/-- **Without brackets in literals every search agrees with the reader.** On a text whose
literals hold no brackets, the bracket that closes a level is the first one outside the
literals up to which as many brackets outside the literals close as open; an opening
bracket at depth zero is the first one outside the literals in an unnested place; and a
declaration is cut at the parenthesis that closes its parameter list in this sense. -/
theorem searches_of_bracketless_literals {text : List Char} {lexemes : List Lexeme}
    (h : Lexed [] text lexemes) (hfree : BracketFree lexemes) :
    (∀ start b o, (start, b) ∈ outsideFrom 0 lexemes → b ∈ openingBrackets →
      (closingBracket? text start = some o ↔
        IsLeast {o | ClosesAt (outsideFrom 0 lexemes) start o} o))
    ∧ (∀ b o, b ∈ openingBrackets →
      (findOpen? b text = some o ↔
        IsLeast {o | (o, b) ∈ outsideFrom 0 lexemes ∧ Unnested (outsideFrom 0 lexemes) o} o))
    ∧ ∀ leading signature name kind head rest, kind ≠ Kind.classLike →
      joinWords (clean leading) signature = text →
      cutAtList? (listOpening signature name) text = some (head, rest) →
      text = head ++ '(' :: rest ∧ (byteLength head, '(') ∈ outsideFrom 0 lexemes
        ∧ ∃ inner tail, ListEnds (outsideFrom 0 lexemes) (byteLength head) rest inner tail
          ∧ extract leading signature name kind = ⟨trim head, some (listText inner tail)⟩ := by
  refine ⟨fun start b o hmem hb => h.closingBracket?_eq_some_iff hfree hmem hb,
    fun b o hb => h.findOpen?_eq_some_iff hfree hb, ?_⟩
  intro leading signature name kind head rest hkind htext hcut
  obtain rfl := eq_of_cutAtList? hcut
  have hparen : '(' ∈ openingBrackets := by decide
  have hmem : (byteLength head, '(') ∈ outsideFrom 0 lexemes :=
    (mem_congr (h.filter_isBracket hfree 0) rfl).mp
      (mem_charsFrom_iff.mpr ⟨head, rest, rfl, Nat.zero_add _⟩)
  rw [← htext] at hcut
  exact ⟨rfl, hmem, extract_of_listEnds hkind hcut fun o =>
    h.closingBracket?_eq_some_iff hfree hmem hparen⟩

/-- A text with a list that has a comma in a literal. -/
def commaText : List Char :=
  "F(a = \",\")".toList

/-- The lexemes of that text. -/
def commaLexemes : List Lexeme :=
  [.plain 'F', .plain '(', .plain 'a', .plain ' ', .plain '=', .plain ' ',
    .literal "\",\"".toList, .plain ')']

/-- The list is closed behind the literal. -/
theorem searches_of_bracketless_literals_comma :
    Lexed [] commaText commaLexemes ∧ BracketFree commaLexemes
      ∧ IsLeast {o | ClosesAt (outsideFrom 0 commaLexemes) 1 o} 9
      ∧ IsLeast {o | (o, '(') ∈ outsideFrom 0 commaLexemes
          ∧ Unnested (outsideFrom 0 commaLexemes) o} 1
      ∧ ∃ inner tail,
          ListEnds (outsideFrom 0 commaLexemes) 1 "a = \",\")".toList inner tail
            ∧ extract [' '] commaText "F".toList .method
              = ⟨"F".toList, some (listText inner tail)⟩ := by
  have hl : Lexeme.IsLiteral ([.plain 'F', .plain '(', .plain 'a', .plain ' ', .plain '=']
      ++ [.plain ' ']) ('"' :: ([','] ++ ['"'])) [')'] :=
    @Lexeme.IsLiteral.closed _ (.escaped '"') _ _
      ⟨rfl, fun _ => Lexeme.not_endsInSigil_plain (by decide) (by decide)⟩
      (.plain (by decide) (by decide) .nil) trivial
  have h : Lexed [] commaText commaLexemes :=
    .plain rfl (.plain rfl (.plain rfl (.plain rfl (.plain rfl (.plain rfl
      (.literal hl (.plain rfl .nil)))))))
  have hfree : BracketFree commaLexemes := by decide
  have htidy : Tidy commaText := tidy_iff_normalize_eq.mpr (by decide)
  obtain ⟨hclosing, hopen, hextract⟩ := searches_of_bracketless_literals h hfree
  obtain ⟨-, -, hlist⟩ := hextract [' '] commaText "F".toList .method "F".toList
    "a = \",\")".toList (by decide) (joinWords_clean_space htidy) (by decide)
  exact ⟨h, hfree, (hclosing 1 '(' 9 (by decide) (by decide)).mp (by decide),
    (hopen '(' 1 (by decide)).mp (by decide), hlist⟩

/-- The lexemes of the text `(")")`. -/
def closingLexemes : List Lexeme :=
  [.plain '(', .literal "\")\"".toList, .plain ')']

/-- The lexemes of the text `"("(`. -/
def openingLexemes : List Lexeme :=
  [.literal "\"(\"".toList, .plain '(']

/-- **A bracket in a literal is counted by the searches and not by the reader.** The
reader finds the list of `(")")` closed behind the literal, and the first parenthesis of
`"("(` behind it too, while the searches end inside the literals; and a declaration with
such a literal is cut inside it. -/
theorem searches_count_literals :
    (Lexed [] "(\")\")".toList closingLexemes
      ∧ IsLeast {o | ClosesAt (outsideFrom 0 closingLexemes) 0 o} 4
      ∧ closingBracket? "(\")\")".toList 0 = some 2)
    ∧ (Lexed [] "\"(\"(".toList openingLexemes
      ∧ IsLeast {o | (o, '(') ∈ outsideFrom 0 openingLexemes
          ∧ Unnested (outsideFrom 0 openingLexemes) o} 3
      ∧ findOpen? '(' "\"(\"(".toList = some 1)
    ∧ extract [' '] "F(a = \")\")".toList "F".toList .method
      = ⟨"F".toList, some "a = \" \")".toList⟩ := by
  have hclosing : outsideFrom 0 closingLexemes = [(0, '('), (4, ')')] := by decide
  have hopening : outsideFrom 0 openingLexemes = [(3, '(')] := by decide
  rw [hclosing, hopening]
  refine ⟨⟨?_, ⟨?_, ?_⟩, by decide⟩, ⟨?_, ⟨?_, ?_⟩, by decide⟩, ?_⟩
  · have hl : Lexeme.IsLiteral ([] ++ [.plain '(']) ('"' :: ([')'] ++ ['"'])) [')'] :=
      @Lexeme.IsLiteral.closed _ (.escaped '"') _ _
        ⟨rfl, fun _ => Lexeme.not_endsInSigil_plain (by decide) (by decide)⟩
        (.plain (by decide) (by decide) .nil) trivial
    exact .plain rfl (.literal hl (.plain rfl .nil))
  · exact ⟨⟨')', by decide⟩, by decide, by decide⟩
  · -- the only other bracket outside the literal is the opening one
    rintro o ⟨⟨c, hmem, -⟩, -, hcount⟩
    rcases List.mem_cons.mp hmem with heq | hmem
    · rw [(Prod.mk.inj heq).1] at hcount
      exact absurd hcount (by decide)
    · rw [(Prod.mk.inj (List.mem_singleton.mp hmem)).1]
  · have hl : Lexeme.IsLiteral [] ('"' :: (['('] ++ ['"'])) ['('] :=
      @Lexeme.IsLiteral.closed _ (.escaped '"') _ _ ⟨rfl, fun _ => Lexeme.not_endsInSigil_nil⟩
        (.plain (by decide) (by decide) .nil) trivial
    exact .literal hl (.plain rfl .nil)
  · refine ⟨by decide, fun p c hmem _ hlt => ?_⟩
    rw [(Prod.mk.inj (List.mem_singleton.mp hmem)).1] at hlt
    exact absurd hlt (Nat.lt_irrefl _)
  · rintro o ⟨hmem, -⟩
    rw [(Prod.mk.inj (List.mem_singleton.mp hmem)).1]
  · have htidy : Tidy "F(a = \")\")".toList := tidy_iff_normalize_eq.mpr (by decide)
    unfold extract
    rw [joinWords_clean_space htidy]
    decide

/-! ## Nothing is lost -/

/-- Around the text of a list the blanks may change, and nothing else. -/
theorem ink_listText (inner tail : List Char) :
    ink (listText inner tail) = ink (inner ++ tail) := by
  unfold listText
  rw [ink_append]
  split
  · next hempty =>
    rw [← ink_trim tail, List.isEmpty_iff.mp hempty, ink_trim, ink_nil, List.append_nil]
  · rw [ink_append, ink_cons_of_blank (by decide), ink_trim, ink_trim]

/-- **The two cuts of a declaration.** `head` and `inner` stand on both sides of a
parenthesis. When that one has a closing bracket, `inner` ends in front of it and `tail`
stands behind it; else `inner` is all that follows. -/
def CutsInto (text head inner tail : List Char) : Prop :=
  (text = head ++ '(' :: inner ∧ tail = [] ∧ closingBracket? text (byteLength head) = none)
    ∨ ∃ c, isClosing c = true ∧ text = head ++ '(' :: (inner ++ c :: tail)
      ∧ closingBracket? text (byteLength head) = some (byteLength (head ++ '(' :: inner))

theorem exists_cutsInto (head rest : List Char) :
    ∃ inner tail, (cutAtClose? 1 rest).getD (rest, []) = (inner, tail)
      ∧ CutsInto (head ++ '(' :: rest) head inner tail := by
  have hclose : closingBracket? (head ++ '(' :: rest) (byteLength head) = _ :=
    closingBracket?_append (by decide)
  cases hcut : cutAtClose? 1 rest with
  | none =>
    rw [hcut] at hclose
    exact ⟨rest, [], rfl, .inl ⟨rfl, rfl, hclose⟩⟩
  | some cut =>
    obtain ⟨inner, tail⟩ := cut
    obtain ⟨c, hc, rfl, -⟩ := of_cutAtClose?_eq_some hcut
    rw [hcut] at hclose
    refine ⟨inner, tail, rfl, .inr ⟨c, hc, rfl, ?_⟩⟩
    rw [hclose, byteLength_append, byteLength_cons, ← Nat.add_assoc]
    rfl

/-- **Extraction loses and duplicates nothing.** Without a parameter list the definition is
the whole declaration, which then holds neither what opens the list nor a parenthesis at
depth zero. With one the declaration is cut twice, and nothing but the blanks around the
cuts and the closing bracket is missing in what is made of it. -/
theorem extract_loses_nothing {kind : Kind} (hkind : kind ≠ .classLike)
    (leading signature name : List Char) :
    ((extract leading signature name kind).parameters = none ↔
        ¬ listOpening signature name <:+: joinWords (clean leading) signature
          ∧ findOpen? '(' (joinWords (clean leading) signature) = none)
      ∧ ((extract leading signature name kind).parameters = none →
        (extract leading signature name kind).definition
          = joinWords (clean leading) signature)
      ∧ ∀ parameters, (extract leading signature name kind).parameters = some parameters →
        ∃ head inner tail,
          CutsInto (joinWords (clean leading) signature) head inner tail
            ∧ (extract leading signature name kind).definition = trim head
            ∧ parameters = listText inner tail
            ∧ ink ((extract leading signature name kind).definition ++ '(' :: parameters)
              = ink (head ++ '(' :: (inner ++ tail)) := by
  rw [← cutAtList?_eq_none_iff]
  cases hcut : cutAtList? (listOpening signature name) (joinWords (clean leading) signature) with
  | none =>
    rw [extract_of_uncut hkind hcut]
    exact ⟨⟨fun _ => rfl, fun _ => rfl⟩, fun _ => rfl, fun _ h => absurd h (by simp)⟩
  | some cut =>
    obtain ⟨head, rest⟩ := cut
    obtain ⟨inner, tail, hclose, hcuts⟩ := exists_cutsInto head rest
    rw [extract_of_cuts hkind hcut hclose, eq_of_cutAtList? hcut]
    refine ⟨⟨fun h => absurd h (by simp), fun h => absurd h (by simp)⟩,
      fun h => absurd h (by simp), ?_⟩
    rintro _ ⟨⟩
    refine ⟨head, inner, tail, hcuts, rfl, rfl, ?_⟩
    rw [ink_append, ink_append, ink_trim, ink_cons_of_not_blank (by decide),
      ink_cons_of_not_blank (by decide), ink_listText]

/-- A signature with a clause behind its list. -/
def pickText : List Char :=
  "Pick<T>(T[] a) where T : class".toList

/-- The list is taken out of the signature, and the clause is kept behind it. -/
theorem extract_loses_nothing_pick :
    Kind.method ≠ .classLike
      ∧ extract [' '] pickText "Pick".toList .method
        = ⟨"Pick<T>".toList, some "T[] a where T : class".toList⟩
      ∧ ∃ head inner tail, CutsInto pickText head inner tail
          ∧ "Pick<T>".toList = trim head
          ∧ "T[] a where T : class".toList = listText inner tail
          ∧ ink ("Pick<T>".toList ++ '(' :: "T[] a where T : class".toList)
            = ink (head ++ '(' :: (inner ++ tail)) := by
  have htext : joinWords (clean [' ']) pickText = pickText :=
    joinWords_clean_space (tidy_iff_normalize_eq.mpr (by decide))
  have hextract : extract [' '] pickText "Pick".toList .method
      = ⟨"Pick<T>".toList, some "T[] a where T : class".toList⟩ := by
    unfold extract
    rw [htext]
    decide
  have hkind : Kind.method ≠ .classLike := by decide
  have hparts := (extract_loses_nothing hkind [' '] pickText "Pick".toList).2.2
  rw [hextract, htext] at hparts
  exact ⟨hkind, hextract, hparts _ rfl⟩

end TestScaffold.Declaration
