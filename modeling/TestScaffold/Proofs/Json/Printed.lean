import TestScaffold.Json.Reader
import TestScaffold.Proofs.Json.Token
/-!
# Printed values are read back

`Reads` follows the reader through a text, token by token and past the blanks, up to some
rest. From a place where a value may stand, the text of a value leads to the place behind
that value (`Written.readsBack`), by induction on how the value is written; so the text of a
whole value is read as that value, in every layout that sets the parts of containers apart
by blanks (`Written.parse?_chars`).
-/

namespace TestScaffold.Json

/-! ## Following the reader -/

/-- **Reading a text up to a rest** takes one reader to another. -/
inductive Reads : Reader → List Char → Reader → List Char → Prop
  | done {r : Reader} {text : List Char} : Reads r text r text
  | blank {r r' : Reader} {c : Char} {text rest : List Char} (space : isSpace c = true)
      (reads : Reads r text r' rest) : Reads r (c :: text) r' rest
  | token {r next r' : Reader} {c : Char} {t : Token} {text after rest : List Char}
      (space : isSpace c = false) (first : token? (c :: text) = some (t, after))
      (shorter : after.length ≤ text.length) (step : r.step? t = some next)
      (reads : Reads next after r' rest) : Reads r (c :: text) r' rest

namespace Reads

variable {r next r' : Reader} {text mid rest : List Char}

theorem trans (h : Reads r text next mid) (h' : Reads next mid r' rest) :
    Reads r text r' rest := by
  induction h with
  | done => exact h'
  | blank space _ ih => exact .blank space (ih h')
  | token space first shorter step _ ih => exact .token space first shorter step (ih h')

/-- Blanks change nothing. -/
theorem blanks {gap : List Char} (h : ∀ c ∈ gap, isSpace c = true) (text : List Char) :
    Reads r (gap ++ text) r text := by
  induction gap with
  | nil => exact .done
  | cons c gap ih =>
    exact .blank (h c (List.mem_cons_self ..)) (ih fun d hd => h d (List.mem_cons_of_mem _ hd))

/-- A punctuation mark in front of a text. -/
theorem mark {c : Char} {t : Token} (space : isSpace c = false)
    (first : token? (c :: text) = some (t, text)) (step : r.step? t = some next) :
    Reads r (c :: text) next text :=
  .token space first (Nat.le_refl _) step .done

/-- The tokens of a text that is read to its end take the reader along. -/
theorem foldlM_tokensWithin? (h : Reads r text r' []) {steps : Nat}
    (hsteps : text.length ≤ steps) :
    (tokensWithin? steps text).bind (·.foldlM Reader.step? r) = some r' := by
  generalize hend : ([] : List Char) = rest at h
  induction h generalizing steps with
  | done =>
    subst hend
    simp [tokensWithin?]
  | blank space _ ih =>
    cases steps with
    | zero => simp at hsteps
    | succ steps =>
      rw [tokensWithin?, if_pos space]
      exact ih (Nat.le_of_succ_le_succ hsteps) hend
  | @token _ _ _ _ t _ after _ space first shorter step _ ih =>
    cases steps with
    | zero => simp at hsteps
    | succ steps =>
      obtain ⟨tokens, htokens, hfold⟩ := Option.bind_eq_some_iff.mp
        (ih (Nat.le_trans shorter (Nat.le_of_succ_le_succ hsteps)) hend)
      rw [tokensWithin?, if_neg (by simp [space]), first]
      show ((tokensWithin? steps after).bind fun tokens => some (t :: tokens)).bind _ = _
      rw [htokens, Option.bind_some, Option.bind_some, List.foldlM_cons, step]
      exact hfold

/-- A text that leads behind a value, from the start to the end, is read as the value. -/
theorem parse?_eq_some {text : String} {value : Json}
    (h : Reads .start text.toList ⟨[], .behind value⟩ []) : parse? text = some value := by
  have hfold := h.foldlM_tokensWithin? (Nat.le_refl _)
  simp only [parse?, tokens?, Option.bind_eq_bind]
  obtain ⟨tokens, htokens, hreader⟩ := Option.bind_eq_some_iff.mp hfold
  rw [htokens, Option.bind_some, hreader]
  rfl

end Reads

/-- From this reader the first token of a value opens it inside the containers of
`stack`. In front of the first item of an array that holds for every token that does not
end the array. -/
def Opens (r : Reader) (stack : List Frame) : Prop :=
  ∀ t, t ≠ .closeBracket → r.step? t = Reader.begin? stack t

theorem opens_value (stack : List Frame) : Opens ⟨stack, .value⟩ stack :=
  fun _ _ => rfl

theorem opens_firstItem (stack : List Frame) :
    Opens ⟨stack, .firstItem⟩ (.array [] :: stack) := by
  intro t ht
  cases t with
  | closeBracket => exact absurd rfl ht
  | openBrace | closeBrace | openBracket | comma | colon | scalar => rfl

/-! ## Layouts -/

/-- A layout that sets the parts of a container apart by blanks only. -/
structure Layout.Blank (layout : Layout) : Prop where
  gap : ∀ level, ∀ c ∈ layout.gap level, isSpace c = true
  colon : ∃ blanks, layout.colon = ':' :: blanks ∧ ∀ c ∈ blanks, isSpace c = true

theorem compactLayout_blank : compactLayout.Blank :=
  ⟨by simp [compactLayout], [], rfl, by simp⟩

theorem prettyLayout_blank : prettyLayout.Blank where
  gap level c hc := by
    rcases List.mem_cons.mp hc with rfl | hc
    · rfl
    · rw [List.eq_of_mem_replicate hc]
      rfl
  colon := ⟨[' '], rfl, by simp [isSpace]⟩

/-! ## Values -/

/-- **The values that have a text**: every number is a natural one, and every string and
every name in an object has a text. -/
inductive Written : Json → Prop
  | scalar {value : Json} (h : Scalar value) : Written value
  | array {items : List Json} (h : ∀ item ∈ items, Written item) : Written (.array items)
  | object {members : List (Option String × Json)}
      (names : ∀ member ∈ members, ∃ name, member.1 = some name)
      (values : ∀ member ∈ members, Written member.2) : Written (.object members)

variable {layout : Layout}

/-- The text of a value leads behind it, from wherever the value may stand. -/
def ReadsBack (layout : Layout) (value : Json) : Prop :=
  ∀ {r : Reader} {stack : List Frame} {rest : List Char} (level : Nat), Opens r stack →
    EndsValue rest → Reads r (chars layout level value ++ rest) ⟨stack, .behind value⟩ rest

/-- The name of a member and the colon behind it. -/
theorem reads_name (hlayout : layout.Blank) (r : Reader) {stack : List Frame}
    {members : List (Option String × Json)} (name : String)
    (step : r.step? (.scalar (.string (some name)))
      = some ⟨stack, .colon members (some name)⟩) (rest : List Char) :
    Reads r (literal (some name) ++ layout.colon ++ rest)
      ⟨.object members (some name) :: stack, .value⟩ rest := by
  obtain ⟨blanks, hcolon, hblanks⟩ := hlayout.colon
  have hshorter : (':' :: (blanks ++ rest)).length
      ≤ (name.toList.flatMap charText ++ ['"'] ++ ':' :: (blanks ++ rest)).length := by
    rw [List.length_append]
    exact Nat.le_add_left _ _
  rw [hcolon, List.append_assoc, List.cons_append]
  exact .token rfl (token?_literal name _) hshorter step
    ((Reads.mark rfl rfl rfl).trans (.blanks hblanks rest))

/-- A value may end in front of blanks and a mark. -/
theorem endsValue_gap (hlayout : layout.Blank) (level : Nat) {c : Char}
    (hc : c ∈ [',', ']', '}']) (rest : List Char) :
    EndsValue (layout.gap level ++ c :: rest) := by
  cases hgap : layout.gap level with
  | nil => exact endsValue_cons.mpr (.inl hc)
  | cons d gap =>
    exact endsValue_cons.mpr (.inr (hlayout.gap level d (hgap ▸ List.mem_cons_self ..)))

/-- What stands behind the first item of an array, up to its end. -/
theorem reads_items (hlayout : layout.Blank) {items : List Json}
    (hitems : ∀ item ∈ items, ReadsBack layout item) (level : Nat) (stack : List Frame)
    (before : List Json) (value : Json) (rest : List Char) :
    EndsValue (itemsChars layout (level + 1) items ++ (layout.gap level ++ ']' :: rest))
    ∧ Reads ⟨.array before :: stack, .behind value⟩
        (itemsChars layout (level + 1) items ++ (layout.gap level ++ ']' :: rest))
        ⟨stack, .behind (.array (before.reverse ++ value :: items))⟩ rest := by
  induction items generalizing before value with
  | nil =>
    refine ⟨endsValue_gap hlayout level (by simp) rest,
      (Reads.blanks (hlayout.gap level) _).trans (.mark rfl rfl ?_)⟩
    simp [Reader.step?, Reader.proceed?]
  | cons item items ih =>
    obtain ⟨hends, hreads⟩ :=
      ih (fun j hj => hitems j (List.mem_cons_of_mem _ hj)) (value :: before) item
    refine ⟨endsValue_cons.mpr (.inl (by simp)), ?_⟩
    simp only [itemsChars, List.cons_append, List.append_assoc] at hreads ⊢
    rw [List.reverse_cons, List.append_assoc] at hreads
    exact (Reads.mark rfl rfl rfl).trans <| (Reads.blanks (hlayout.gap _) _).trans <|
      (hitems item (List.mem_cons_self ..) _ (opens_value _) hends).trans hreads

/-- What stands behind the first member of an object, up to its end. -/
theorem reads_members (hlayout : layout.Blank) {members : List (Option String × Json)}
    (hnames : ∀ member ∈ members, ∃ name, member.1 = some name)
    (hvalues : ∀ member ∈ members, ReadsBack layout member.2) (level : Nat)
    (stack : List Frame) (before : List (Option String × Json)) (name : Option String)
    (value : Json) (rest : List Char) :
    EndsValue (membersChars layout (level + 1) members ++ (layout.gap level ++ '}' :: rest))
    ∧ Reads ⟨.object before name :: stack, .behind value⟩
        (membersChars layout (level + 1) members ++ (layout.gap level ++ '}' :: rest))
        ⟨stack, .behind (.object (before.reverse ++ (name, value) :: members))⟩ rest := by
  induction members generalizing before name value with
  | nil =>
    refine ⟨endsValue_gap hlayout level (by simp) rest,
      (Reads.blanks (hlayout.gap level) _).trans (.mark rfl rfl ?_)⟩
    simp [Reader.step?, Reader.proceed?]
  | cons member members ih =>
    obtain ⟨next, item⟩ := member
    obtain ⟨next, rfl⟩ := hnames (next, item) (List.mem_cons_self ..)
    obtain ⟨hends, hreads⟩ := ih (fun m hm => hnames m (List.mem_cons_of_mem _ hm))
      (fun m hm => hvalues m (List.mem_cons_of_mem _ hm)) ((name, value) :: before) (some next)
      item
    refine ⟨endsValue_cons.mpr (.inl (by simp)), ?_⟩
    have hname := reads_name hlayout ⟨stack, .name ((name, value) :: before)⟩ next rfl
      (chars layout (level + 1) item ++ (membersChars layout (level + 1) members
        ++ (layout.gap level ++ '}' :: rest)))
    simp only [membersChars, List.cons_append, List.append_assoc] at hreads hname ⊢
    rw [List.reverse_cons, List.append_assoc] at hreads
    exact (Reads.mark rfl rfl rfl).trans <| (Reads.blanks (hlayout.gap _) _).trans <|
      hname.trans <|
      (hvalues (some next, item) (List.mem_cons_self ..) _ (opens_value _) hends).trans hreads

/-- The text of a scalar begins with no blank. -/
theorem exists_scalarChars_eq_cons {value : Json} (h : Scalar value) :
    ∃ c word, scalarChars value = c :: word ∧ isSpace c = false := by
  cases h with
  | null => exact ⟨_, _, rfl, rfl⟩
  | bool value => cases value <;> exact ⟨_, _, rfl, rfl⟩
  | natural n =>
    obtain ⟨c, digits, heq, hdigit⟩ := exists_toDigits_eq_cons n
    refine ⟨c, digits, heq, Bool.eq_false_iff.mpr fun hspace => ?_⟩
    have hends : EndsValue (c :: []) := endsValue_cons.mpr (.inr hspace)
    rw [hends.not_number.1] at hdigit
    cases hdigit
  | text text => exact ⟨_, _, rfl, rfl⟩

/-- A scalar is read back. -/
theorem readsBack_scalar {value : Json} (h : Scalar value) : ReadsBack layout value := by
  intro r stack rest level hopens hrest
  have hchars : chars layout level value = scalarChars value := by
    cases h <;> rfl
  have htoken := token?_scalarChars h hrest
  obtain ⟨c, word, heq, hspace⟩ := exists_scalarChars_eq_cons h
  rw [heq] at htoken
  rw [hchars, heq]
  exact .token hspace htoken (by simp) (hopens _ (by simp)) .done

/-- **A written value is read back**, by induction on how it is written. -/
theorem Written.readsBack (hlayout : layout.Blank) {value : Json} (h : Written value) :
    ReadsBack layout value := by
  induction h with
  | scalar h => exact readsBack_scalar h
  | @array items _ ih =>
    intro r stack rest level hopens hrest
    have hopen : r.step? .openBracket = some ⟨stack, .firstItem⟩ :=
      hopens .openBracket (by simp)
    cases items with
    | nil =>
      exact (Reads.mark rfl rfl hopen).trans (.mark rfl rfl rfl)
    | cons item items =>
      obtain ⟨hends, hreads⟩ := reads_items hlayout
        (fun j hj => ih j (List.mem_cons_of_mem _ hj)) level stack [] item rest
      simp only [chars, List.cons_append, List.append_assoc, List.nil_append] at hreads ⊢
      exact (Reads.mark rfl rfl hopen).trans <| (Reads.blanks (hlayout.gap _) _).trans <|
        (ih item (List.mem_cons_self ..) _ (opens_firstItem _) hends).trans hreads
  | @object members hnames _ ih =>
    intro r stack rest level hopens hrest
    have hopen : r.step? .openBrace = some ⟨stack, .firstName⟩ := hopens .openBrace (by simp)
    cases members with
    | nil => exact (Reads.mark rfl rfl hopen).trans (.mark rfl rfl rfl)
    | cons member members =>
      obtain ⟨name, value⟩ := member
      obtain ⟨name, rfl⟩ := hnames (name, value) (List.mem_cons_self ..)
      obtain ⟨hends, hreads⟩ := reads_members hlayout
        (fun m hm => hnames m (List.mem_cons_of_mem _ hm))
        (fun m hm => ih m (List.mem_cons_of_mem _ hm)) level stack [] (some name)
        value rest
      have hname := reads_name hlayout ⟨stack, .firstName⟩ name rfl
        (chars layout (level + 1) value ++ (membersChars layout (level + 1) members
          ++ (layout.gap level ++ '}' :: rest)))
      simp only [chars, List.cons_append, List.append_assoc, List.nil_append]
        at hreads hname ⊢
      exact (Reads.mark rfl rfl hopen).trans <| (Reads.blanks (hlayout.gap _) _).trans <|
        hname.trans <|
        (ih (some name, value) (List.mem_cons_self ..) _ (opens_value _) hends).trans hreads

/-- **The text of a value is read as that value**, at every level of a layout and in front of
blanks. -/
theorem Written.parse?_chars_append (hlayout : layout.Blank) {value : Json} (h : Written value)
    (level : Nat) {blanks : List Char} (hblanks : ∀ c ∈ blanks, isSpace c = true) :
    parse? (String.ofList (chars layout level value ++ blanks)) = some value := by
  have hends : EndsValue blanks := fun c hc => .inr (hblanks c (List.mem_of_mem_head? hc))
  have hbehind := Reads.blanks (r := ⟨[], .behind value⟩) hblanks []
  rw [List.append_nil] at hbehind
  refine Reads.parse?_eq_some ?_
  rw [String.toList_ofList]
  exact (h.readsBack hlayout level (opens_value []) hends).trans hbehind

/-- The text of a value alone is read as that value. -/
theorem Written.parse?_chars (hlayout : layout.Blank) {value : Json} (h : Written value)
    (level : Nat) : parse? (String.ofList (chars layout level value)) = some value := by
  have hparse := h.parse?_chars_append hlayout level (List.forall_mem_nil _)
  rwa [List.append_nil] at hparse

end TestScaffold.Json
