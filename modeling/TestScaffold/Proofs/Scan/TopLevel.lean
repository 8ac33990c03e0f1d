import TestScaffold.Proofs.Scan.Lexeme
/-!
# What stands at the top level

The reader of declaration text goes over a text once and keeps two things: where it
stands with respect to the literals, and a depth. This module says what comes out of
that, without a reader: the characters it finds at the top level are those that are no
brackets and no quotes, stand outside every literal and are unnested
(`mem_topLevelChars_iff`).

`Behind` is the invariant that carries it. Between two lexemes the reader stands outside
the literals, it knows whether the mark of a verbatim literal is right in front of it,
and when it has just closed a verbatim literal no double quote follows. Inside a literal
it meets nothing (`IsLiteral.read`), because what may stand between two quotes leads from
the opening one back to itself (`Style.Inside.run`).
-/

namespace TestScaffold.Scan

namespace Lexeme

/-! ## Inside a literal -/

/-- Where a reader stands between the quotes of a literal. -/
def Style.place : Style → Literal
  | escaped quote => .quoted quote
  | verbatim => .verbatim

variable {style : Style} {q : Char} {body text rest : List Char} {front : List Lexeme}

/-- Inside a literal nothing stands at the top level, and no bracket counts. -/
theorem inside_step (place : Literal) (h : place.isOutside = false) (depth : Nat)
    (c : Char) :
    Reader.step ⟨place, depth⟩ c = ⟨place.step c, depth⟩
      ∧ Reader.atTop ⟨place, depth⟩ c = false := by
  simp [Reader.step, Reader.atTop, h]

theorem Escaped.run (h : Escaped q body) (depth : Nat) :
    Reader.run ⟨.quoted q, depth⟩ body = ⟨.quoted q, depth⟩
      ∧ ∀ m ∈ Reader.marks ⟨.quoted q, depth⟩ body, m.2 = false := by
  induction h with
  | nil => exact ⟨rfl, by simp⟩
  | @plain c body hq hs _ ih =>
    obtain ⟨hstep, htop⟩ := inside_step (.quoted q) rfl depth c
    have hplace : (Literal.quoted q).step c = .quoted q := by simp [Literal.step, hq, hs]
    rw [Reader.run_cons, Reader.marks_cons, List.forall_mem_cons, hstep, hplace]
    exact ⟨ih.1, htop, ih.2⟩
  | @escape c body _ ih =>
    obtain ⟨hstep, htop⟩ := inside_step (.quoted q) rfl depth '\\'
    obtain ⟨hstep', htop'⟩ := inside_step (.escaped q) rfl depth c
    have hplace : (Literal.quoted q).step '\\' = .escaped q := rfl
    have hplace' : (Literal.escaped q).step c = .quoted q := rfl
    rw [Reader.run_cons, Reader.run_cons, Reader.marks_cons, Reader.marks_cons,
      List.forall_mem_cons, List.forall_mem_cons, hstep, hplace, hstep', hplace']
    exact ⟨ih.1, htop, htop', ih.2⟩

theorem Doubled.run (h : Doubled body) (depth : Nat) :
    Reader.run ⟨.verbatim, depth⟩ body = ⟨.verbatim, depth⟩
      ∧ ∀ m ∈ Reader.marks ⟨.verbatim, depth⟩ body, m.2 = false := by
  induction h with
  | nil => exact ⟨rfl, by simp⟩
  | @plain c body hq _ ih =>
    obtain ⟨hstep, htop⟩ := inside_step .verbatim rfl depth c
    have hplace : Literal.verbatim.step c = .verbatim := by simp [Literal.step, hq]
    rw [Reader.run_cons, Reader.marks_cons, List.forall_mem_cons, hstep, hplace]
    exact ⟨ih.1, htop, ih.2⟩
  | @pair body _ ih =>
    -- the first quote closes the literal and the second one opens it again
    obtain ⟨hstep, htop⟩ := inside_step .verbatim rfl depth '"'
    have hclose : Literal.verbatim.step '"' = .closedVerbatim := rfl
    have hopen : Reader.step ⟨.closedVerbatim, depth⟩ '"' = ⟨.verbatim, depth⟩ := rfl
    have htop' : Reader.atTop ⟨.closedVerbatim, depth⟩ '"' = false := by simp [Reader.atTop]
    rw [Reader.run_cons, Reader.run_cons, Reader.marks_cons, Reader.marks_cons,
      List.forall_mem_cons, List.forall_mem_cons, hstep, hclose, hopen]
    exact ⟨ih.1, htop, htop', ih.2⟩

/-- **What may stand between two quotes is passed.** -/
theorem Style.Inside.run (h : style.Inside body) (depth : Nat) :
    Reader.run ⟨style.place, depth⟩ body = ⟨style.place, depth⟩
      ∧ ∀ m ∈ Reader.marks ⟨style.place, depth⟩ body, m.2 = false := by
  cases style with
  | escaped quote => exact Escaped.run h depth
  | verbatim => exact Doubled.run h depth

/-- Where no quote closes a literal with backslashes, nothing stands at the top level,
neither inside it nor behind a backslash in it. -/
theorem marks_of_unclosed_escaped (q : Char) (depth : Nat) (text : List Char) :
    ((∀ inner rest, Escaped q inner → text ≠ inner ++ q :: rest) →
        ∀ m ∈ Reader.marks ⟨.quoted q, depth⟩ text, m.2 = false)
      ∧ ((∀ inner rest, Escaped q inner → '\\' :: text ≠ inner ++ q :: rest) →
        ∀ m ∈ Reader.marks ⟨.escaped q, depth⟩ text, m.2 = false) := by
  induction text with
  | nil => simp
  | cons c text ih =>
    refine ⟨fun h => ?_, fun h => ?_⟩
    · obtain ⟨hstep, htop⟩ := inside_step (.quoted q) rfl depth c
      rw [Reader.marks_cons, List.forall_mem_cons, hstep]
      refine ⟨htop, ?_⟩
      by_cases hs : c = '\\'
      · subst hs
        have hplace : (Literal.quoted q).step '\\' = .escaped q := rfl
        rw [hplace]
        exact ih.2 h
      · have hq : c ≠ q := fun hq => h [] text .nil (by rw [hq]; rfl)
        have hplace : (Literal.quoted q).step c = .quoted q := by simp [Literal.step, hq, hs]
        rw [hplace]
        exact ih.1 fun inner rest hi heq => h _ rest (hi.plain hq hs) (by rw [heq]; rfl)
    · obtain ⟨hstep, htop⟩ := inside_step (.escaped q) rfl depth c
      have hplace : (Literal.escaped q).step c = .quoted q := rfl
      rw [Reader.marks_cons, List.forall_mem_cons, hstep, hplace]
      exact ⟨htop, ih.1 fun inner rest hi heq => h _ rest hi.escape (by rw [heq]; rfl)⟩

/-- Where no quote closes a verbatim literal, nothing stands at the top level, neither
inside it nor behind a quote in it. -/
theorem marks_of_unclosed_verbatim (depth : Nat) (text : List Char) :
    ((∀ inner rest, Doubled inner → rest.head? ≠ some '"' → text ≠ inner ++ '"' :: rest) →
        ∀ m ∈ Reader.marks ⟨.verbatim, depth⟩ text, m.2 = false)
      ∧ ((∀ inner rest, Doubled inner → rest.head? ≠ some '"' →
          '"' :: text ≠ inner ++ '"' :: rest) →
        ∀ m ∈ Reader.marks ⟨.closedVerbatim, depth⟩ text, m.2 = false) := by
  induction text with
  | nil => simp
  | cons c text ih =>
    refine ⟨fun h => ?_, fun h => ?_⟩
    · obtain ⟨hstep, htop⟩ := inside_step .verbatim rfl depth c
      rw [Reader.marks_cons, List.forall_mem_cons, hstep]
      refine ⟨htop, ?_⟩
      by_cases hq : c = '"'
      · subst hq
        have hplace : Literal.verbatim.step '"' = .closedVerbatim := rfl
        rw [hplace]
        exact ih.2 h
      · have hplace : Literal.verbatim.step c = .verbatim := by simp [Literal.step, hq]
        rw [hplace]
        exact ih.1 fun inner rest hi he heq => h _ rest (hi.plain hq) he (by rw [heq]; rfl)
    · -- the quote in front is doubled by this one, for it does not close the literal
      obtain rfl : c = '"' := by
        by_contra hne
        exact h [] (c :: text) .nil (by simpa using hne) rfl
      have hopen : Reader.step ⟨.closedVerbatim, depth⟩ '"' = ⟨.verbatim, depth⟩ := rfl
      rw [Reader.marks_cons, List.forall_mem_cons, hopen]
      refine ⟨by simp [Reader.atTop], ih.1 fun inner rest hi he heq => ?_⟩
      exact h _ rest hi.pair he (by rw [heq]; rfl)

/-! ## Between lexemes -/

/-- **A reader between two lexemes**: behind `front` and in front of `rest`. -/
structure Behind (front : List Lexeme) (rest : List Char) (place : Literal) : Prop where
  /-- It stands outside the literals. -/
  outside : place.isOutside = true
  /-- It knows whether the mark of a verbatim literal stands in front of it. -/
  sigil : place = .sigil ↔ EndsInSigil front
  /-- What it has closed is closed. -/
  closed : place = .closedVerbatim → rest.head? ≠ some '"'

theorem behind_start (text : List Char) : Behind [] text .code where
  outside := rfl
  sigil := ⟨fun h => absurd h (by decide), fun h => absurd h not_endsInSigil_nil⟩
  closed h := absurd h (by decide)

variable {place : Literal} {c : Char}

/-- A character outside the literals leads on. -/
theorem Behind.plain (h : Behind front (c :: rest) place) (hc : isQuote c = false) :
    Behind (front ++ [.plain c]) rest (place.step c) := by
  obtain ⟨hdouble, hsingle⟩ := Bool.or_eq_false_iff.mp hc
  have hd : c ≠ '"' := by simpa using hdouble
  have hs : c ≠ '\'' := by simpa using hsingle
  have hstep : place.step c = if c = '@' then .sigil
      else if c = '$' ∧ place = .sigil then .sigil else .code := by
    rw [Reader.step_of_isOutside h.outside, Literal.stepOutside, if_neg hd, if_neg hs]
  refine ⟨Reader.isOutside_step h.outside hc, ?_, ?_⟩
  · rw [endsInSigil_plain_iff, ← h.sigil, hstep]
    by_cases hat : c = '@'
    · simp [hat]
    · by_cases hdollar : c = '$' ∧ place = .sigil
      · simp [hdollar]
      · simp [hat, hdollar]
  · intro hclosed
    rw [hstep] at hclosed
    split at hclosed
    · exact absurd hclosed (by decide)
    · split at hclosed <;> exact absurd hclosed (by decide)

/-- A quote leads into the literal that it opens. -/
theorem Behind.open (h : Behind front (style.quote :: rest) place) (ho : style.Opens front) :
    place.step style.quote = style.place := by
  rw [Reader.step_of_isOutside h.outside]
  cases style with
  | escaped quote =>
    obtain ⟨hquote, hsigil⟩ := ho
    by_cases hd : quote = '"'
    · subst hd
      have hcode : place = .code := by
        have hout := h.outside
        cases place with
        | code => rfl
        | sigil => exact absurd (h.sigil.mp rfl) (hsigil rfl)
        | closedVerbatim => exact absurd rfl (h.closed rfl)
        | quoted _ => exact Bool.noConfusion hout
        | escaped _ => exact Bool.noConfusion hout
        | verbatim => exact Bool.noConfusion hout
      simp [Style.quote, Style.place, Literal.stepOutside, hcode]
    · have hs : quote = '\'' := by simpa [isQuote, hd] using hquote
      simp [Style.quote, Style.place, Literal.stepOutside, hs]
  | verbatim => simp [Style.quote, Style.place, Literal.stepOutside, h.sigil.mpr ho]

/-- The closing quote leads out of the literal. -/
theorem behind_closed (ho : style.Opens front) (he : style.Ends rest) (text : List Char) :
    Behind (front ++ [.literal text]) rest (style.place.step style.quote) := by
  have hs := Style.quote_ne_backslash ho
  cases style with
  | escaped quote =>
    have hplace : (Literal.quoted quote).step quote = .code := by
      simpa [Literal.step, Style.quote] using hs
    show Behind _ rest ((Literal.quoted quote).step quote)
    rw [hplace]
    exact ⟨rfl, ⟨fun h => absurd h (by decide), fun h => absurd h not_endsInSigil_literal⟩,
      fun h => absurd h (by decide)⟩
  | verbatim =>
    exact ⟨rfl, ⟨fun h => absurd h (by decide), fun h => absurd h not_endsInSigil_literal⟩,
      fun _ => he⟩

/-- **A reader meets nothing in a literal**, and behind it stands between two lexemes
again, at the same depth, unless the text ends there. -/
theorem IsLiteral.read {r : Reader} (h : IsLiteral front text rest)
    (hb : Behind front (text ++ rest) r.literal) :
    (∀ m ∈ r.marks text, m.2 = false)
      ∧ (rest = [] ∨ (r.run text).depth = r.depth
          ∧ Behind (front ++ [.literal text]) rest (r.run text).literal) := by
  -- the opening quote stands nowhere and leads into the literal
  have hopen : ∀ {style : Style} {tail : List Char}, style.Opens front →
      Behind front (style.quote :: tail) r.literal →
      r.atTop style.quote = false ∧ r.step style.quote = ⟨style.place, r.depth⟩ := by
    intro style tail ho hb
    have hq := Style.isQuote_quote ho
    refine ⟨?_, ?_⟩
    · rcases Bool.or_eq_true_iff.mp hq with hq | hq <;> simp [Reader.atTop, hq]
    · have hplain : isBracket style.quote = false := by
        rcases Bool.or_eq_true_iff.mp hq with hq | hq <;> rw [beq_iff_eq.mp hq] <;> rfl
      have hdepth := Reader.depth_step_plain hb.outside hplain
      have hplace := hb.open ho
      rw [← hdepth, ← hplace]
      rfl
  cases h with
  | @closed style body rest ho hi he =>
    obtain ⟨htop, hstep⟩ := hopen ho hb
    obtain ⟨hrun, hmarks⟩ := hi.run r.depth
    have hclose : style.place.isOutside = false := by cases style <;> rfl
    obtain ⟨hstep', htop'⟩ := inside_step _ hclose r.depth style.quote
    rw [Reader.run_cons, Reader.run_append, Reader.run_cons, Reader.run_nil, Reader.marks_cons,
      Reader.marks_append, Reader.marks_cons, Reader.marks_nil, hstep, hrun, hstep']
    refine ⟨?_, .inr ⟨rfl, behind_closed ho he _⟩⟩
    rw [List.forall_mem_cons, List.forall_mem_append, List.forall_mem_singleton]
    exact ⟨htop, hmarks, htop'⟩
  | @unclosed style body ho hi =>
    obtain ⟨htop, hstep⟩ := hopen ho hb
    refine ⟨?_, .inl rfl⟩
    rw [Reader.marks_cons, List.forall_mem_cons, hstep]
    refine ⟨htop, ?_⟩
    cases style with
    | escaped quote =>
      exact (marks_of_unclosed_escaped quote r.depth body).1 fun inner rest h =>
        hi inner rest h trivial
    | verbatim => exact (marks_of_unclosed_verbatim r.depth body).1 hi

end Lexeme

open Lexeme

/-! ## The characters at the top level -/

theorem offsetsFrom_append (offset : Nat) (a b : List (Char × Bool)) :
    offsetsFrom offset (a ++ b)
      = offsetsFrom offset a ++ offsetsFrom (offset + Text.byteLength (a.map Prod.fst)) b := by
  induction a generalizing offset with
  | nil => rfl
  | cons m a ih =>
    obtain ⟨c, top⟩ := m
    rw [List.cons_append, offsetsFrom, offsetsFrom, ih, List.map_cons, Text.byteLength_cons,
      Nat.add_assoc]
    cases top <;> rfl

theorem offsetsFrom_eq_nil {offset : Nat} {a : List (Char × Bool)} (h : ∀ m ∈ a, m.2 = false) :
    offsetsFrom offset a = [] := by
  induction a generalizing offset with
  | nil => rfl
  | cons m a ih =>
    obtain ⟨htop, hrest⟩ := List.forall_mem_cons.mp h
    obtain ⟨c, top⟩ := m
    dsimp only at htop
    rw [offsetsFrom, ih hrest, htop]
    rfl

theorem offsetsFrom_sublist (offset : Nat) (r : Reader) (text : List Char) :
    (offsetsFrom offset (r.marks text)).Sublist (charsFrom offset text) := by
  induction text generalizing offset r with
  | nil => exact List.Sublist.slnil
  | cons c text ih =>
    rw [Reader.marks_cons, offsetsFrom, charsFrom]
    cases r.atTop c with
    | true => exact (ih _ _).cons_cons _
    | false => exact (ih _ _).cons _

/-- **A reader finds the characters outside the literals that stand at depth zero** and
are no brackets. -/
theorem Lexed.mem_offsetsFrom_iff {front lexemes : List Lexeme} {text : List Char} {r : Reader}
    (h : Lexed front text lexemes) (hb : Behind front text r.literal) {offset : Nat}
    {x : Nat × Char} :
    x ∈ offsetsFrom offset (r.marks text) ↔
      ∃ before after, outsideFrom offset lexemes = before ++ x :: after
        ∧ depthOf r.depth before = 0 ∧ isBracket x.2 = false := by
  induction h generalizing r offset with
  | nil => simp [offsetsFrom, outsideFrom]
  | @plain front lexemes c rest hc _ ih =>
    have hdepth : (r.step c).depth = depthAfter r.depth c := by
      rw [Reader.step, hb.outside, if_pos rfl]
    have htop : r.atTop c = true ↔ r.depth = 0 ∧ isBracket c = false := by
      obtain ⟨hdouble, hsingle⟩ := Bool.or_eq_false_iff.mp hc
      rw [Reader.atTop, hb.outside, hdouble, hsingle]
      simp [isBracket]
    have ih := @ih (r.step c) (hb.plain hc) (offset + c.utf8Size)
    have hmem : x ∈ offsetsFrom offset (r.marks (c :: rest)) ↔
        (r.depth = 0 ∧ isBracket c = false ∧ x = (offset, c))
          ∨ x ∈ offsetsFrom (offset + c.utf8Size) ((r.step c).marks rest) := by
      rw [Reader.marks_cons, offsetsFrom, ← and_assoc, ← htop]
      cases r.atTop c <;> simp
    rw [hmem, ih, hdepth, outsideFrom]
    constructor
    · rintro (⟨hzero, hplain, rfl⟩ | ⟨before, after, heq, hzero, hplain⟩)
      · exact ⟨[], _, rfl, hzero, hplain⟩
      · exact ⟨(offset, c) :: before, after, by rw [heq]; rfl, hzero, hplain⟩
    · rintro ⟨before, after, heq, hzero, hplain⟩
      cases before with
      | nil =>
        obtain ⟨rfl, -⟩ := List.cons.inj heq
        exact .inl ⟨hzero, hplain, rfl⟩
      | cons y before =>
        obtain ⟨rfl, hrest⟩ := List.cons.inj heq
        exact .inr ⟨before, after, hrest, hzero, hplain⟩
  | @literal front lexemes text rest hl hlexed ih =>
    obtain ⟨hmarks, hrest⟩ := hl.read hb
    rw [Reader.marks_append, offsetsFrom_append, offsetsFrom_eq_nil hmarks, List.nil_append,
      Reader.map_fst_marks, outsideFrom]
    rcases hrest with rfl | ⟨hdepth, hb⟩
    · rw [hlexed.unique .nil]
      simp [offsetsFrom, outsideFrom]
    · rw [ih hb, hdepth]

/-- The brackets and the quotes. -/
theorem notMem_special_iff {c : Char} :
    c ∉ ['<', '>', '[', ']', '(', ')', '"', '\''] ↔
      isBracket c = false ∧ isQuote c = false := by
  simp only [List.mem_cons, List.not_mem_nil, or_false, not_or, isBracket, isOpening, isClosing,
    isQuote, Bool.or_eq_false_iff, beq_eq_false_iff_ne]
  tauto

/-- **What stands at the top level.** Every text is cut into lexemes in one way. The
characters at the top level, which come in the order of the text, are those that are no
brackets and no quotes, stand outside every literal and are unnested among the characters
outside the literals. -/
theorem mem_topLevelChars_iff (text : List Char) :
    ∃ lexemes, (∀ other, Lexed [] text other ↔ other = lexemes)
      ∧ (topLevelChars text).Pairwise (fun a b => a.1 < b.1)
      ∧ ∀ o c, (o, c) ∈ topLevelChars text ↔
          (∃ before after, text = before ++ c :: after ∧ Text.byteLength before = o)
            ∧ c ∉ ['<', '>', '[', ']', '(', ')', '"', '\'']
            ∧ (o, c) ∈ outsideFrom 0 lexemes
            ∧ Unnested (outsideFrom 0 lexemes) o := by
  obtain ⟨lexemes, hiff⟩ := exists_lexed_iff text
  have h : Lexed [] text lexemes := (hiff lexemes).mpr rfl
  refine ⟨lexemes, hiff,
    (increasing_charsFrom 0 text).sublist (offsetsFrom_sublist 0 Reader.start text), fun o c => ?_⟩
  have hread : (o, c) ∈ topLevelChars text ↔
      ∃ before after, outsideFrom 0 lexemes = before ++ (o, c) :: after
        ∧ depthOf 0 before = 0 ∧ isBracket c = false :=
    h.mem_offsetsFrom_iff (behind_start text)
  rw [hread]
  constructor
  · rintro ⟨before, after, heq, hzero, hplain⟩
    have hs := h.increasing 0
    have hmem : (o, c) ∈ outsideFrom 0 lexemes := by simp [heq]
    refine ⟨?_, ?_, hmem, ?_⟩
    · simpa using mem_charsFrom_iff.mp ((h.outsideFrom_sublist 0).subset hmem)
    · exact notMem_special_iff.mpr ⟨hplain, h.isQuote_eq_false hmem⟩
    · rw [heq] at hs ⊢
      exact (unnested_iff hs).mpr hzero
  · rintro ⟨-, hspecial, hmem, hunnested⟩
    obtain ⟨before, after, heq⟩ := List.append_of_mem hmem
    have hs := h.increasing 0
    rw [heq] at hs hunnested
    exact ⟨before, after, heq, (unnested_iff hs).mp hunnested,
      (notMem_special_iff.mp hspecial).1⟩

end TestScaffold.Scan
