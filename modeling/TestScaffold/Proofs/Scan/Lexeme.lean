import Mathlib.Data.List.Basic
import TestScaffold.Proofs.Scan.Depth
import TestScaffold.Proofs.Scan.Segment
/-!
# The literals of a text

A text is a sequence of **lexemes**: characters outside literals, and literals with
their quotes. `Lexed` says how a text is cut into them from left to right. A quote
outside the literals opens one:

* a quote that is not marked as verbatim runs to the next same quote that no backslash
  takes along (`Escaped`);
* a double quote with an `@` and any number of `$` right in front of it runs to the first
  double quote that is not doubled (`Doubled`);
* a literal that nothing closes runs to the end of the text.

Nothing here speaks of a reader that goes over the text and keeps a state.
`exists_lexed_iff` says that every text can be cut into lexemes in one way only, so
that it makes sense to ask which of its characters are outside the literals.
-/

namespace TestScaffold.Scan

/-- A part of a text. -/
inductive Lexeme where
  /-- A character outside the literals. -/
  | plain (c : Char)
  /-- A literal with its quotes. -/
  | literal (text : List Char)
deriving DecidableEq, Repr

namespace Lexeme

/-- How a literal is written. -/
inductive Style where
  /-- Between two of these quotes, with backslashes. -/
  | escaped (quote : Char)
  /-- Between double quotes, which are doubled inside. -/
  | verbatim
deriving DecidableEq, Repr

/-- The quote at both ends of a literal. -/
def Style.quote : Style → Char
  | escaped quote => quote
  | verbatim => '"'

/-- A text in which every such quote stands right behind a backslash, and every backslash
takes a character along. -/
inductive Escaped (quote : Char) : List Char → Prop
  | nil : Escaped quote []
  | plain {c : Char} {body : List Char} (hq : c ≠ quote) (hs : c ≠ '\\')
      (hb : Escaped quote body) : Escaped quote (c :: body)
  | escape {c : Char} {body : List Char} (hb : Escaped quote body) :
      Escaped quote ('\\' :: c :: body)

/-- A text in which every double quote is doubled. -/
inductive Doubled : List Char → Prop
  | nil : Doubled []
  | plain {c : Char} {body : List Char} (hq : c ≠ '"') (hb : Doubled body) :
      Doubled (c :: body)
  | pair {body : List Char} (hb : Doubled body) : Doubled ('"' :: '"' :: body)

/-- What may stand between the quotes of a literal. -/
def Style.Inside : Style → List Char → Prop
  | escaped quote, body => Escaped quote body
  | verbatim, body => Doubled body

/-- What may stand behind the quote that closes a literal. Another double quote would
make it a doubled one. -/
def Style.Ends : Style → List Char → Prop
  | escaped _, _ => True
  | verbatim, rest => rest.head? ≠ some '"'

/-- Right in front stands an `@` and any number of `$`, outside the literals. -/
def EndsInSigil (front : List Lexeme) : Prop :=
  ∃ before n, front = before ++ plain '@' :: List.replicate n (plain '$')

/-- The style of the literal that a quote opens behind `front`. -/
def Style.Opens (front : List Lexeme) : Style → Prop
  | escaped quote => isQuote quote = true ∧ (quote = '"' → ¬EndsInSigil front)
  | verbatim => EndsInSigil front

/-- **The literals of a text.** The literal behind `front` and in front of `rest` ends at
the first quote that closes it, and with the text when there is none. -/
inductive IsLiteral (front : List Lexeme) : List Char → List Char → Prop
  | closed {style : Style} {body rest : List Char} (ho : style.Opens front)
      (hb : style.Inside body) (he : style.Ends rest) :
      IsLiteral front (style.quote :: (body ++ [style.quote])) rest
  | unclosed {style : Style} {body : List Char} (ho : style.Opens front)
      (hb : ∀ inner rest, style.Inside inner → style.Ends rest →
        body ≠ inner ++ style.quote :: rest) :
      IsLiteral front (style.quote :: body) []

end Lexeme

open Lexeme

/-- **A text cut into lexemes** behind the lexemes `front`, from left to right. -/
inductive Lexed : List Lexeme → List Char → List Lexeme → Prop
  | nil {front : List Lexeme} : Lexed front [] []
  | plain {front lexemes : List Lexeme} {c : Char} {rest : List Char}
      (hc : isQuote c = false) (h : Lexed (front ++ [.plain c]) rest lexemes) :
      Lexed front (c :: rest) (.plain c :: lexemes)
  | literal {front lexemes : List Lexeme} {text rest : List Char}
      (hl : IsLiteral front text rest) (h : Lexed (front ++ [.literal text]) rest lexemes) :
      Lexed front (text ++ rest) (.literal text :: lexemes)

namespace Lexeme

/-! ## The mark of a verbatim literal -/

theorem not_endsInSigil_nil : ¬EndsInSigil [] := by
  rintro ⟨before, n, h⟩
  simp at h

/-- A character carries the mark on when it is an `@`, or a `$` behind a mark. -/
theorem endsInSigil_plain_iff {front : List Lexeme} {c : Char} :
    EndsInSigil (front ++ [plain c]) ↔ c = '@' ∨ (c = '$' ∧ EndsInSigil front) := by
  constructor
  · rintro ⟨before, n, h⟩
    cases n with
    | zero =>
      have := (List.append_inj' (show front ++ [plain c] = before ++ [plain '@'] from h) rfl).2
      simp only [List.cons.injEq, plain.injEq, and_true] at this
      exact .inl this
    | succ n =>
      rw [List.replicate_succ', ← List.cons_append, ← List.append_assoc] at h
      obtain ⟨hfront, hc⟩ := List.append_inj' h rfl
      simp only [List.cons.injEq, plain.injEq, and_true] at hc
      exact .inr ⟨hc, before, n, hfront⟩
  · rintro (rfl | ⟨rfl, before, n, rfl⟩)
    · exact ⟨front, 0, rfl⟩
    · exact ⟨before, n + 1, by
        rw [List.replicate_succ', ← List.cons_append, ← List.append_assoc]⟩

/-- No other character ends a mark. -/
theorem not_endsInSigil_plain {front : List Lexeme} {c : Char} (hat : c ≠ '@')
    (hdollar : c ≠ '$') : ¬EndsInSigil (front ++ [plain c]) := by
  rw [endsInSigil_plain_iff]
  rintro (h | ⟨h, -⟩)
  · exact hat h
  · exact hdollar h

/-- No mark reaches across a literal. -/
theorem not_endsInSigil_literal {front : List Lexeme} {text : List Char} :
    ¬EndsInSigil (front ++ [literal text]) := by
  rintro ⟨before, n, h⟩
  cases n with
  | zero =>
    have := (List.append_inj' (show front ++ [literal text] = before ++ [plain '@'] from h) rfl).2
    simp at this
  | succ n =>
    rw [List.replicate_succ', ← List.cons_append, ← List.append_assoc] at h
    have := (List.append_inj' h rfl).2
    simp at this

/-! ## A literal ends in one place -/

theorem Escaped.of_cons {q c : Char} {body : List Char} (h : Escaped q (c :: body))
    (hc : c ≠ '\\') : c ≠ q ∧ Escaped q body := by
  cases h with
  | plain hq _ h => exact ⟨hq, h⟩
  | escape _ => exact absurd rfl hc

theorem Escaped.of_escape {q c : Char} {body : List Char}
    (h : Escaped q ('\\' :: c :: body)) : Escaped q body := by
  cases h with
  | plain _ hs _ => exact absurd rfl hs
  | escape h => exact h

theorem Doubled.of_cons {c : Char} {body : List Char} (h : Doubled (c :: body))
    (hc : c ≠ '"') : Doubled body := by
  cases h with
  | plain _ h => exact h
  | pair _ => exact absurd rfl hc

theorem Doubled.exists_of_quote {body : List Char} (h : Doubled ('"' :: body)) :
    ∃ rest, body = '"' :: rest ∧ Doubled rest := by
  cases h with
  | plain hq _ => exact absurd rfl hq
  | pair h => exact ⟨_, rfl, h⟩

/-- A body does not go on behind the quote that closes it. -/
theorem Escaped.not_append {q : Char} {body : List Char} (hq : q ≠ '\\')
    (h : Escaped q body) (rest : List Char) : ¬Escaped q (body ++ q :: rest) := by
  induction h with
  | nil => exact fun h => (h.of_cons hq).1 rfl
  | plain _ hs _ ih => exact fun h => ih (h.of_cons hs).2
  | escape _ ih => exact fun h => ih h.of_escape

/-- Behind a text with doubled quotes a quote is doubled too. -/
theorem Doubled.head?_of_append {body rest : List Char} (h : Doubled body)
    (hr : Doubled (body ++ '"' :: rest)) : rest.head? = some '"' := by
  induction h with
  | nil =>
    obtain ⟨tail, rfl, -⟩ := hr.exists_of_quote
    rfl
  | plain hq _ ih => exact ih (hr.of_cons hq)
  | pair _ ih =>
    obtain ⟨tail, htail, htail'⟩ := hr.exists_of_quote
    obtain rfl := (List.cons.inj htail).2
    exact ih htail'

theorem Style.quote_ne_backslash {style : Style} {front : List Lexeme}
    (h : style.Opens front) : style.quote ≠ '\\' := by
  cases style with
  | escaped quote =>
    rintro rfl
    exact absurd h.1 (by decide)
  | verbatim => decide

theorem Style.isQuote_quote {style : Style} {front : List Lexeme} (h : style.Opens front) :
    isQuote style.quote = true := by
  cases style with
  | escaped quote => exact h.1
  | verbatim => rfl

/-- **What stands between the quotes cannot be continued across the closing quote.** -/
theorem Style.Inside.not_append {style : Style} {front : List Lexeme} {body rest : List Char}
    (ho : style.Opens front) (hb : style.Inside body) (tail : List Char)
    (he : style.Ends (rest ++ style.quote :: tail)) :
    ¬style.Inside (body ++ style.quote :: rest) := by
  cases style with
  | escaped quote =>
    have hb : Escaped quote body := hb
    exact hb.not_append (quote_ne_backslash ho) rest
  | verbatim =>
    have hb : Doubled body := hb
    intro h
    have hhead := hb.head?_of_append h
    obtain ⟨c, rest', rfl⟩ := List.exists_cons_of_ne_nil (l := rest) (by rintro rfl; simp at hhead)
    exact he (by simpa using hhead)

/-- **The closing quote is found in one place only.** -/
theorem Style.Inside.eq_of_append {style : Style} {front : List Lexeme}
    {body body' rest rest' : List Char} (ho : style.Opens front) (hb : style.Inside body)
    (hb' : style.Inside body') (he : style.Ends rest) (he' : style.Ends rest')
    (h : body ++ style.quote :: rest = body' ++ style.quote :: rest') : body = body' := by
  rcases List.append_eq_append_iff.mp h with ⟨more, rfl, hmore⟩ | ⟨more, rfl, hmore⟩
  · cases more with
    | nil => rw [List.append_nil]
    | cons c more =>
      obtain ⟨rfl, rfl⟩ := List.cons.inj hmore
      exact absurd hb' (hb.not_append ho _ he)
  · cases more with
    | nil => rw [List.append_nil]
    | cons c more =>
      obtain ⟨rfl, rfl⟩ := List.cons.inj hmore
      exact absurd hb (hb'.not_append ho _ he')

/-- The quote and what stands in front of it decide how the literal is written. -/
theorem Style.eq_of_opens {style style' : Style} {front : List Lexeme}
    (h : style.Opens front) (h' : style'.Opens front) (hq : style.quote = style'.quote) :
    style = style' := by
  cases style with
  | escaped quote =>
    cases style' with
    | escaped quote' => exact congrArg _ hq
    | verbatim => exact absurd h' (h.2 hq)
  | verbatim =>
    cases style' with
    | escaped quote' => exact absurd h (h'.2 hq.symm)
    | verbatim => rfl

/-- Every quote opens a literal of some style. -/
theorem exists_style (front : List Lexeme) {c : Char} (hc : isQuote c = true) :
    ∃ style : Style, style.Opens front ∧ style.quote = c := by
  by_cases h : c = '"' ∧ EndsInSigil front
  · exact ⟨.verbatim, h.2, h.1.symm⟩
  · exact ⟨.escaped c, ⟨hc, fun hd hf => h ⟨hd, hf⟩⟩, rfl⟩

namespace IsLiteral

variable {front : List Lexeme} {text text' rest rest' : List Char}

/-- A literal begins with a quote. -/
theorem exists_cons (h : IsLiteral front text rest) :
    ∃ c body, isQuote c = true ∧ text = c :: body := by
  cases h with
  | closed ho _ _ => exact ⟨_, _, Style.isQuote_quote ho, rfl⟩
  | unclosed ho _ => exact ⟨_, _, Style.isQuote_quote ho, rfl⟩

/-- **A literal ends in one place.** -/
theorem unique (h : IsLiteral front text rest) (h' : IsLiteral front text' rest')
    (heq : text ++ rest = text' ++ rest') : text = text' := by
  cases h with
  | @closed style body rest ho hb he =>
    cases h' with
    | @closed style' body' rest' ho' hb' he' =>
      simp only [List.cons_append, List.append_assoc, List.cons.injEq] at heq
      obtain rfl := Style.eq_of_opens ho ho' heq.1
      rw [hb.eq_of_append ho hb' he he' heq.2]
    | @unclosed style' body' ho' hb' =>
      simp only [List.cons_append, List.append_assoc, List.append_nil, List.cons.injEq] at heq
      obtain rfl := Style.eq_of_opens ho ho' heq.1
      exact absurd heq.2.symm (hb' _ _ hb he)
  | @unclosed style body ho hb =>
    cases h' with
    | @closed style' body' rest' ho' hb' he' =>
      simp only [List.cons_append, List.append_assoc, List.append_nil, List.cons.injEq] at heq
      obtain rfl := Style.eq_of_opens ho ho' heq.1
      exact absurd heq.2 (hb _ _ hb' he')
    | unclosed _ _ => rwa [List.append_nil, List.append_nil] at heq

end IsLiteral

/-- **Every quote begins a literal.** -/
theorem exists_isLiteral (front : List Lexeme) {c : Char} (hc : isQuote c = true)
    (text : List Char) : ∃ body rest, text = body ++ rest ∧ IsLiteral front (c :: body) rest := by
  obtain ⟨style, ho, rfl⟩ := exists_style front hc
  by_cases h : ∃ inner rest, style.Inside inner ∧ style.Ends rest
      ∧ text = inner ++ style.quote :: rest
  · obtain ⟨inner, rest, hi, he, rfl⟩ := h
    exact ⟨inner ++ [style.quote], rest, by simp, .closed ho hi he⟩
  · exact ⟨text, [], (List.append_nil _).symm,
      .unclosed ho fun inner rest hi he heq => h ⟨inner, rest, hi, he, heq⟩⟩

end Lexeme

/-! ## Every text is cut in one way -/

theorem exists_lexed (front : List Lexeme) (text : List Char) :
    ∃ lexemes, Lexed front text lexemes := by
  match text with
  | [] => exact ⟨[], .nil⟩
  | c :: rest =>
    cases hc : isQuote c with
    | false =>
      obtain ⟨lexemes, h⟩ := exists_lexed (front ++ [.plain c]) rest
      exact ⟨_, .plain hc h⟩
    | true =>
      obtain ⟨body, rest', hrest, hl⟩ := exists_isLiteral front hc rest
      obtain ⟨lexemes, h⟩ := exists_lexed (front ++ [.literal (c :: body)]) rest'
      rw [hrest, ← List.cons_append]
      exact ⟨_, .literal hl h⟩
termination_by text.length
decreasing_by
  · simp
  · rw [hrest, List.length_cons, List.length_append]
    omega

theorem Lexed.unique {front lexemes lexemes' : List Lexeme} {text : List Char}
    (h : Lexed front text lexemes) (h' : Lexed front text lexemes') : lexemes = lexemes' := by
  induction h generalizing lexemes' with
  | nil =>
    generalize ht : ([] : List Char) = text at h'
    cases h' with
    | nil => rfl
    | plain _ _ => exact absurd ht (by simp)
    | literal hl _ =>
      obtain ⟨c, body, -, rfl⟩ := hl.exists_cons
      exact absurd ht (by simp)
  | @plain front lexemes c rest hc h ih =>
    generalize ht : c :: rest = text at h'
    cases h' with
    | nil => exact absurd ht (by simp)
    | plain _ h' =>
      obtain ⟨rfl, rfl⟩ := List.cons.inj ht
      rw [ih h']
    | literal hl _ =>
      obtain ⟨d, body, hd, rfl⟩ := hl.exists_cons
      rw [(List.cons.inj ht).1, hd] at hc
      exact Bool.noConfusion hc
  | @literal front lexemes text rest hl h ih =>
    generalize ht : text ++ rest = whole at h'
    cases h' with
    | nil =>
      obtain ⟨c, body, -, rfl⟩ := hl.exists_cons
      exact absurd ht (by simp)
    | plain hd _ =>
      obtain ⟨c, body, hc, rfl⟩ := hl.exists_cons
      rw [List.cons_append] at ht
      rw [← (List.cons.inj ht).1, hc] at hd
      exact Bool.noConfusion hd
    | literal hl' h' =>
      obtain rfl := hl.unique hl' ht
      obtain rfl := List.append_cancel_left ht
      rw [ih h']

/-- **Every text is cut into lexemes in one way.** -/
theorem exists_lexed_iff (text : List Char) :
    ∃ lexemes, ∀ other, Lexed [] text other ↔ other = lexemes := by
  obtain ⟨lexemes, h⟩ := exists_lexed [] text
  exact ⟨lexemes, fun other => ⟨fun h' => h'.unique h, fun h' => h' ▸ h⟩⟩

/-! ## Characters outside the literals -/

/-- The characters outside the literals with their byte offsets, the first lexeme
standing at `offset`. -/
def outsideFrom : Nat → List Lexeme → List (Nat × Char)
  | _, [] => []
  | offset, .plain c :: rest => (offset, c) :: outsideFrom (offset + c.utf8Size) rest
  | offset, .literal text :: rest => outsideFrom (offset + Text.byteLength text) rest

theorem Lexed.outsideFrom_sublist {front lexemes : List Lexeme} {text : List Char}
    (h : Lexed front text lexemes) (offset : Nat) :
    (outsideFrom offset lexemes).Sublist (charsFrom offset text) := by
  induction h generalizing offset with
  | nil => exact List.Sublist.slnil
  | plain _ _ ih => exact (ih _).cons_cons _
  | literal _ _ ih =>
    rw [charsFrom_append]
    exact (ih _).trans (List.sublist_append_right _ _)

/-- Every quote is part of a literal. -/
theorem Lexed.isQuote_eq_false {front lexemes : List Lexeme} {text : List Char}
    (h : Lexed front text lexemes) {offset o : Nat} {c : Char}
    (hmem : (o, c) ∈ outsideFrom offset lexemes) : isQuote c = false := by
  induction h generalizing offset with
  | nil => exact absurd hmem List.not_mem_nil
  | plain hc _ ih =>
    rcases List.mem_cons.mp hmem with heq | hmem
    · rw [(Prod.mk.inj heq).2]
      exact hc
    · exact ih hmem
  | literal _ _ ih => exact ih hmem

/-- The characters outside the literals stand in the order of the text. -/
theorem Lexed.increasing {front lexemes : List Lexeme} {text : List Char}
    (h : Lexed front text lexemes) (offset : Nat) : Increasing (outsideFrom offset lexemes) :=
  (increasing_charsFrom offset text).sublist (h.outsideFrom_sublist offset)

end TestScaffold.Scan
