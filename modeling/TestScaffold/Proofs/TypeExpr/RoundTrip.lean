import TestScaffold.Proofs.TypeExpr.Canonical
import TestScaffold.TypeExpr.Parser
/-!
# Reading types back

Every text that holds the tokens of a canonical type is read as that type
(`ofChars_of_spaced`), so the text a type is printed as is.

The outline is read in two regimes. At depth zero each token moves the outline
one step further: `Reads` says what has been read so far, and a token of a
nullable mark or an array rank extends it. Inside a group no token means
anything until the group ends: a properly nested text is kept as it is
(`Outline.foldl_nested`), and read as a list of types afterwards. So the whole
proof is one induction over the type, in which each case passes its group at
once and the induction hypothesis reads what the group holds.
-/

namespace TestScaffold.TypeExpr

open Scan Text

namespace Outline

/-! ## Inside a group -/

/-- Inside a group a character that is no bracket is kept. -/
theorem step_inside {o : Outline} {c : Char} (hc : isBracket c = false)
    (hdepth : o.depth ≠ 0) (hrank : o.afterRank = false) :
    o.step c = { o with pending := o.pending ++ [c] } := by
  have hne : c ≠ '<' ∧ c ≠ '>' ∧ c ≠ '[' ∧ c ≠ ']' ∧ c ≠ '(' ∧ c ≠ ')' := by
    refine ⟨?_, ?_, ?_, ?_, ?_, ?_⟩ <;> rintro rfl <;> exact absurd hc (by decide)
  obtain ⟨h₁, h₂, h₃, h₄, h₅, h₆⟩ := hne
  obtain ⟨depth, name, pending, arguments, ranks, nullable, afterRank⟩ := o
  dsimp only at hdepth hrank
  subst hrank
  simp only [step, h₁, h₂, h₃, h₄, h₅, h₆, hdepth, if_false, keep, Bool.false_eq_true,
    ite_self]

/-- Inside a group an opening bracket is kept. -/
theorem step_opening {o : Outline} {c d : Char} (hc : closer? c = some d)
    (hdepth : o.depth ≠ 0) (hrank : o.afterRank = false) :
    o.step c = { o with pending := o.pending ++ [c], depth := o.depth + 1 } := by
  obtain ⟨depth, name, pending, arguments, ranks, nullable, afterRank⟩ := o
  dsimp only at hdepth hrank
  subst hrank
  rcases closer?_eq_some_iff.mp hc with ⟨rfl, -⟩ | ⟨rfl, -⟩ | ⟨rfl, -⟩
  · show (if depth = 0 then _ else _) = _
    rw [if_neg hdepth]
    rfl
  · show (if depth = 0 then _ else _) = _
    rw [if_neg hdepth]
    rfl
  · rfl

/-- Inside a group inside a group a closing bracket is kept. -/
theorem step_closing {o : Outline} {c d : Char} (hc : closer? c = some d)
    (hdepth : 1 < o.depth) (hrank : o.afterRank = false) :
    o.step d = { o with pending := o.pending ++ [d], depth := o.depth - 1 } := by
  obtain ⟨depth, name, pending, arguments, ranks, nullable, afterRank⟩ := o
  dsimp only at hdepth hrank
  subst hrank
  rcases closer?_eq_some_iff.mp hc with ⟨-, rfl⟩ | ⟨-, rfl⟩ | ⟨-, rfl⟩
  · show (if depth ≤ 1 then _ else _) = _
    rw [if_neg (by omega)]
    rfl
  · show (if depth ≤ 1 then _ else _) = _
    rw [if_neg (by omega)]
    rfl
  · rfl

/-- **Inside a group a properly nested text is kept as it is.** -/
theorem foldl_nested {s : List Char} (hs : Nested s) {o : Outline} (hdepth : o.depth ≠ 0)
    (hrank : o.afterRank = false) :
    s.foldl step o = { o with pending := o.pending ++ s } := by
  induction hs generalizing o with
  | nil => rw [List.foldl_nil, List.append_nil]
  | plain hc _ ih =>
    rw [List.foldl_cons, step_inside hc hdepth hrank]
    rw [ih (by exact hdepth) (by exact hrank)]
    simp
  | @group b c a s hbc _ _ iha ihs =>
    rw [List.foldl_cons, step_opening hbc hdepth hrank, List.foldl_append]
    rw [iha (by simp) (by exact hrank), List.foldl_cons,
      step_closing hbc (by simp; omega) (by exact hrank)]
    rw [ihs (by simpa using hdepth) (by exact hrank)]
    simp

/-! ## At depth zero -/

/-- In front of every mark a character that means nothing is kept. -/
theorem step_plain {o : Outline} {c : Char} (hc : isTypeMark c = false) :
    o.step c = { o with pending := o.pending ++ [c], afterRank := false } := by
  have hne : c ≠ '<' ∧ c ≠ '>' ∧ c ≠ '[' ∧ c ≠ ']' ∧ c ≠ '(' ∧ c ≠ ')' ∧ c ≠ '?' := by
    refine ⟨?_, ?_, ?_, ?_, ?_, ?_, ?_⟩ <;> rintro rfl <;> exact absurd hc (by decide)
  obtain ⟨h₁, h₂, h₃, h₄, h₅, h₆, h₇⟩ := hne
  simp only [step, h₁, h₂, h₃, h₄, h₅, h₆, h₇, if_false, keep]

theorem foldl_plain {s : List Char} (hs : ∀ c ∈ s, isTypeMark c = false) {o : Outline}
    (hrank : o.afterRank = false) :
    s.foldl step o = { o with pending := o.pending ++ s } := by
  induction s generalizing o with
  | nil => rw [List.foldl_nil, List.append_nil]
  | cons c s ih =>
    rw [List.foldl_cons, step_plain (hs c List.mem_cons_self),
      ih (fun d hd => hs d (List.mem_cons_of_mem c hd)) (by rfl)]
    obtain ⟨depth, name, pending, arguments, ranks, nullable, afterRank⟩ := o
    dsimp only at hrank
    subst hrank
    simp

/-- **What an outline at depth zero has read**: the name or what will be the name,
the argument lists, the ranks and the nullable mark. -/
structure Reads (o : Outline) (name : List Char) (arguments : List (List Char))
    (ranks : List Bool) (nullable : Bool) : Prop where
  /-- Every group has ended. -/
  depth : o.depth = 0
  /-- The name is still to be taken from what was read, or has been and only
  blanks were read since. -/
  name : (o.name = none ∧ Text.trim o.pending = name)
    ∨ (o.name = some name ∧ isBlankText o.pending = true)
  /-- The argument lists. -/
  arguments : o.arguments = arguments
  /-- The nullable marks of the ranks. -/
  ranks : o.ranks = ranks
  /-- The nullable mark. -/
  nullable : o.nullable = nullable

namespace Reads

variable {o : Outline} {n : List Char} {args : List (List Char)} {ranks : List Bool}
  {nullable : Bool}

/-- The text that names the type is the name that was read. -/
theorem nameText (h : o.Reads n args ranks nullable) : o.nameText = n := by
  unfold Outline.nameText
  rcases h.name with ⟨hnone, hpending⟩ | ⟨hsome, hpending⟩
  · rw [hnone]
    exact hpending
  · rw [hsome]
    cases n with
    | nil => exact trim_of_blank hpending
    | cons c n => rfl

/-- Taking the name takes the name that was read. -/
theorem getD_name (h : o.Reads n args ranks nullable) :
    o.name.getD (Text.trim o.pending) = n := by
  rcases h.name with ⟨hnone, hpending⟩ | ⟨hsome, -⟩
  · rw [hnone]
    exact hpending
  · rw [hsome]
    rfl

/-- Blanks change nothing. -/
theorem blanks (h : o.Reads n args ranks nullable) {b : List Char}
    (hb : isBlankText b = true) : (b.foldl step o).Reads n args ranks nullable := by
  induction b generalizing o with
  | nil => exact h
  | cons c b ih =>
    rw [isBlankText_cons, Bool.and_eq_true] at hb
    refine ih ?_ hb.2
    rw [step_plain (isTypeMark_of_isBlank hb.1)]
    have hc : isBlankText [c] = true := by simp [hb.1]
    refine ⟨h.depth, ?_, h.arguments, h.ranks, h.nullable⟩
    rcases h.name with ⟨hnone, hpending⟩ | ⟨hsome, hpending⟩
    · refine .inl ⟨hnone, ?_⟩
      rw [← hpending]
      exact trim_append_blank hc
    · refine .inr ⟨hsome, ?_⟩
      show isBlankText (o.pending ++ [c]) = true
      rw [isBlankText_append, hpending, hc]
      rfl

/-- A nullable mark that does not belong to a rank is that of the type. -/
theorem nullable_mark (h : o.Reads n args ranks nullable) (hrank : o.afterRank = false) :
    (o.step '?').Reads n args ranks true := by
  have hstep : o.step '?'
      = { o with
          name := some (o.name.getD (Text.trim o.pending)), nullable := true, pending := []
          afterRank := false } := by
    show (if o.afterRank = true then _ else if o.depth = 0 then _ else _) = _
    rw [hrank, if_neg Bool.false_ne_true, if_pos h.depth]
    rfl
  rw [hstep, h.getD_name]
  exact ⟨h.depth, .inr ⟨rfl, rfl⟩, h.arguments, h.ranks, rfl⟩

/-- Brackets with blanks inside are an array rank. -/
theorem rank_brackets (h : o.Reads n args ranks nullable) {b : List Char}
    (hb : isBlankText b = true) :
    (('[' :: (b ++ [']'])).foldl step o).Reads n args (ranks ++ [false]) nullable
      ∧ (('[' :: (b ++ [']'])).foldl step o).afterRank = true := by
  have hplain : ∀ c ∈ b, isTypeMark c = false := fun c hc =>
    isTypeMark_of_isBlank (isBlankText_iff.mp hb c hc)
  -- in front of the blanks the name has been taken and one level is open
  have hopen : ∃ p, o.step '['
      = { o with name := some n, pending := p, depth := 1, afterRank := false } := by
    have hstep : o.step '['
        = if o.name.isNone then
            { o with
              name := some (o.name.getD (Text.trim o.pending)), pending := [], depth := 1
              afterRank := false }
          else { o with pending := o.pending ++ ['['], depth := 1, afterRank := false } := by
      show (if o.depth = 0 then _ else _) = _
      rw [if_pos h.depth]
      rfl
    rw [hstep, h.getD_name]
    rcases h.name with ⟨hnone, -⟩ | ⟨hsome, -⟩
    · exact ⟨[], by rw [hnone]; rfl⟩
    · refine ⟨o.pending ++ ['['], ?_⟩
      rw [hsome, if_neg (by simp)]
  obtain ⟨p, hp⟩ := hopen
  rw [List.foldl_cons, hp, List.foldl_append, foldl_plain hplain rfl, List.foldl_cons,
    List.foldl_nil]
  refine ⟨⟨rfl, .inr ⟨rfl, rfl⟩, h.arguments, ?_, h.nullable⟩, rfl⟩
  show o.ranks ++ [false] = ranks ++ [false]
  rw [h.ranks]

/-- **A spaced array rank is read as that rank.** -/
theorem rank (h : o.Reads n args ranks nullable) {rank : ArrayRank} {s : List Char}
    (hs : Spaced rank.tokens s) :
    (s.foldl step o).Reads n args (ranks ++ [rank.nullable]) nullable := by
  obtain ⟨a, x, b, ha, hx, hb, rfl⟩ := ArrayRank.exists_of_spaced hs
  obtain ⟨hread, hafter⟩ := (h.blanks ha).rank_brackets hx
  rw [List.foldl_append, List.foldl_append, List.foldl_append]
  refine blanks ?_ hb
  cases hnull : rank.nullable with
  | false => exact hread
  | true =>
    -- a question mark right behind the bracket is that of the rank
    show ((List.foldl step (a.foldl step o) ('[' :: (x ++ [']']))).step '?').Reads _ _ _ _
    generalize List.foldl step (a.foldl step o) ('[' :: (x ++ [']'])) = o' at hread hafter
    have hstep : o'.step '?'
        = { o' with ranks := o'.ranks.dropLast ++ [true], afterRank := false } := by
      show (if o'.afterRank = true then _ else _) = _
      rw [if_pos hafter]
    rw [hstep]
    refine ⟨hread.depth, hread.name, hread.arguments, ?_, hread.nullable⟩
    show o'.ranks.dropLast ++ [true] = ranks ++ [true]
    rw [hread.ranks, List.dropLast_concat]

/-- Spaced array ranks are read one after the other. -/
theorem rankList {rs : List ArrayRank} {s : List Char} (h : o.Reads n args ranks nullable)
    (hs : Spaced (rs.flatMap ArrayRank.tokens) s) :
    (s.foldl step o).Reads n args (ranks ++ rs.map ArrayRank.nullable) nullable := by
  induction rs generalizing o ranks s with
  | nil =>
    rw [List.map_nil, List.append_nil]
    exact h.blanks hs.blank_of_nil
  | cons r rs ih =>
    rw [List.flatMap_cons] at hs
    obtain ⟨x, y, hx, hy, rfl⟩ := hs.exists_of_append
    rw [List.foldl_append, List.map_cons, List.append_cons]
    exact ih (h.rank hx) hy

/-- **The marks of a type are read as its nullable mark and its ranks.** -/
theorem marks (h : o.Reads n args [] false) (hrank : o.afterRank = false)
    {marked : Bool} {rs : List ArrayRank} {s : List Char}
    (hs : Spaced (markTokens marked rs) s) :
    (s.foldl step o).Reads n args (rs.map ArrayRank.nullable) marked := by
  obtain ⟨a, b, ha, hb, rfl⟩ := hs.exists_of_append
  rw [List.foldl_append]
  have hmark : (a.foldl step o).Reads n args [] marked := by
    cases marked with
    | false => exact h.blanks ha.blank_of_nil
    | true =>
      obtain ⟨x, y, hx, hy, rfl⟩ := ha.exists_of_singleton
      have hx' : (x.foldl step o).afterRank = false := by
        rw [foldl_plain _ hrank]
        · exact hrank
        · exact fun c hc => isTypeMark_of_isBlank (isBlankText_iff.mp hx c hc)
      rw [List.foldl_append, List.singleton_append, List.foldl_cons]
      exact ((h.blanks hx).nullable_mark hx').blanks hy
  exact hmark.rankList hb

end Reads

/-! ## Names and groups -/

/-- A spaced name is read as that name. -/
theorem reads_named {name : String} (hname : IsTypeName name) {s : List Char}
    (hs : Spaced [name.toList] s) :
    (s.foldl step {}).Reads name.toList [] [] false ∧ (s.foldl step {}).afterRank = false := by
  obtain ⟨a, b, ha, hb, rfl⟩ := hs.exists_of_singleton
  have hplain : ∀ c ∈ a ++ (name.toList ++ b), isTypeMark c = false := by
    rw [List.forall_mem_append, List.forall_mem_append]
    exact ⟨fun c hc => isTypeMark_of_isBlank (isBlankText_iff.mp ha c hc), hname.2,
      fun c hc => isTypeMark_of_isBlank (isBlankText_iff.mp hb c hc)⟩
  rw [foldl_plain hplain rfl]
  exact ⟨⟨rfl, .inl ⟨rfl, trim_surround ha hname.1 hb⟩, rfl, rfl, rfl⟩, rfl⟩

/-- A spaced generic name is read as that name with what stands in its
brackets. -/
theorem reads_generic {name : String} (hname : IsTypeName name) {a s b : List Char}
    (ha : Spaced [name.toList] a) (hs : Nested s) (hb : isBlankText b = true) :
    ((a ++ ('<' :: (s ++ '>' :: b))).foldl step {}).Reads name.toList [s] [] false
      ∧ ((a ++ ('<' :: (s ++ '>' :: b))).foldl step {}).afterRank = false := by
  obtain ⟨hread, -⟩ := reads_named hname ha
  rw [List.foldl_append, List.foldl_cons]
  generalize a.foldl step {} = o at hread
  have hopen : o.step '<'
      = { o with
          name := some (o.name.getD (Text.trim o.pending)), pending := [], depth := 1
          afterRank := false } := by
    show (if o.depth = 0 then _ else _) = _
    rw [if_pos hread.depth]
    rfl
  have hplain : ∀ c ∈ b, isTypeMark c = false := fun c hc =>
    isTypeMark_of_isBlank (isBlankText_iff.mp hb c hc)
  rw [hopen, List.foldl_append, foldl_nested hs (by simp) rfl, List.foldl_cons,
    hread.getD_name, foldl_plain hplain rfl]
  refine ⟨⟨rfl, .inr ⟨rfl, hb⟩, ?_, hread.ranks, hread.nullable⟩, rfl⟩
  show o.arguments ++ [s] = [s]
  rw [hread.arguments, List.nil_append]

/-- A text between parentheses is trimmed. -/
theorem trim_parentheses (s : List Char) :
    Text.trim ('(' :: (s ++ [')'])) = '(' :: (s ++ [')']) :=
  trim_eq_self_append (a := ['(']) (b := [')']) (by decide) (by decide) (by simp) (by simp)

/-- A spaced tuple is read as a name between parentheses. -/
theorem reads_tuple {a s b : List Char} (ha : isBlankText a = true) (hs : Nested s)
    (hb : isBlankText b = true) :
    ((a ++ ('(' :: (s ++ ')' :: b))).foldl step {}).Reads ('(' :: (s ++ [')'])) [] [] false
      ∧ ((a ++ ('(' :: (s ++ ')' :: b))).foldl step {}).afterRank = false := by
  have hplain : ∀ {b : List Char}, isBlankText b = true → ∀ c ∈ b, isTypeMark c = false :=
    fun hb c hc => isTypeMark_of_isBlank (isBlankText_iff.mp hb c hc)
  have hopen : ∀ p : List Char, ({ pending := p } : Outline).step '('
      = { pending := p ++ ['('], depth := 1 } := fun p => rfl
  have hclose : ∀ p : List Char, ({ pending := p, depth := 1 } : Outline).step ')'
      = { pending := p ++ [')'] } := fun p => rfl
  rw [List.foldl_append, foldl_plain (hplain ha) rfl, List.foldl_cons, hopen,
    List.foldl_append, foldl_nested hs (by simp) rfl, List.foldl_cons, hclose,
    foldl_plain (hplain hb) rfl]
  refine ⟨⟨rfl, .inl ⟨rfl, ?_⟩, rfl, rfl, rfl⟩, rfl⟩
  show Text.trim ([] ++ a ++ ['('] ++ s ++ [')'] ++ b) = _
  have := trim_surround ha (trim_parentheses s) hb
  simpa using this

end Outline

/-! ## Reading by the outline -/

/-- A text that ends with something else than a parenthesis is no tuple. -/
theorem tupleInterior?_eq_none {s : List Char} (h : s.getLast? ≠ some ')') :
    tupleInterior? s = none := by
  unfold tupleInterior?
  split
  · next rest =>
    refine if_neg fun hlast => h ?_
    cases rest with
    | nil => simp at hlast
    | cons c rest => rwa [List.getLast?_cons_cons]
  · rfl

/-- What is read of a text between parentheses. -/
theorem ofChars_of_tuple {s inner : List Char}
    (h : Text.trim s = '(' :: (inner ++ [')'])) : ofChars s = tuple (listOfChars inner) := by
  have htuple : tupleInterior? (Text.trim s) = some inner := by
    rw [h]
    simp [tupleInterior?]
  rw [ofChars]
  split
  · next x hx =>
    rw [hx] at htuple
    rw [Option.some.inj htuple]
  · next hx =>
    rw [hx] at htuple
    exact absurd htuple (by simp)

/-- What is read of any other text: the name and marks of its outline, and the
types in its argument lists. -/
theorem ofChars_of_outline {s : List Char} (h : tupleInterior? (Text.trim s) = none) :
    ofChars s =
      let o := Outline.read (Text.trim s)
      match tupleInterior? o.nameText with
      | some inner =>
        ⟨"", (o.arguments.map listOfChars).flatten, o.ranks.map ArrayRank.mk, o.nullable,
          listOfChars inner⟩
      | none =>
        ⟨String.ofList o.nameText, (o.arguments.map listOfChars).flatten,
          o.ranks.map ArrayRank.mk, o.nullable, []⟩ := by
  rw [ofChars]
  split
  · next x hx =>
    rw [h] at hx
    exact absurd hx (by simp)
  · dsimp only
    rw [List.attach_map_val]
    split
    · next inner hinner => rw [hinner]
    · next hinner => rw [hinner]

/-- What is read of a text by what its outline has read. -/
theorem ofChars_of_reads {s n : List Char} {args : List (List Char)} {ranks : List Bool}
    {nullable : Bool} (h : tupleInterior? (Text.trim s) = none)
    (hread : (Outline.read (Text.trim s)).Reads n args ranks nullable) :
    ofChars s =
      match tupleInterior? n with
      | some inner =>
        ⟨"", (args.map listOfChars).flatten, ranks.map ArrayRank.mk, nullable,
          listOfChars inner⟩
      | none =>
        ⟨String.ofList n, (args.map listOfChars).flatten, ranks.map ArrayRank.mk, nullable,
          []⟩ := by
  rw [ofChars_of_outline h]
  dsimp only
  rw [hread.nameText, hread.arguments, hread.ranks, hread.nullable]

/-- The marks of a type end with a question mark or a bracket. -/
theorem markTokens_eq_nil_or (nullable : Bool) (ranks : List ArrayRank) :
    markTokens nullable ranks = []
      ∨ ∃ ws w, markTokens nullable ranks = ws ++ [w] ∧ w ≠ [] ∧ Text.trim w = w
        ∧ w.getLast? ≠ some ')' := by
  rcases List.eq_nil_or_concat ranks with rfl | ⟨rs, r, rfl⟩
  · cases nullable with
    | false => exact .inl rfl
    | true => exact .inr ⟨[], ['?'], rfl, by simp, by decide, by decide⟩
  · refine .inr ⟨(if nullable then [['?']] else []) ++ rs.flatMap ArrayRank.tokens ++ [['[']],
      if r.nullable then [']', '?'] else [']'], ?_, ?_, ?_, ?_⟩
    · simp [markTokens, ArrayRank.tokens]
    all_goals cases r.nullable <;> decide

theorem markTokens_eq_nil_iff {nullable : Bool} {ranks : List ArrayRank} :
    markTokens nullable ranks = [] ↔ nullable = false ∧ ranks = [] := by
  cases nullable <;> cases ranks <;> simp [markTokens, ArrayRank.tokens]

/-- A text that ends with marks is no tuple. -/
theorem tupleInterior?_of_spaced_marks {ws : List (List Char)} {nullable : Bool}
    {ranks : List ArrayRank} (hne : markTokens nullable ranks ≠ []) {s : List Char}
    (hs : Spaced (ws ++ markTokens nullable ranks) s) :
    tupleInterior? (Text.trim s) = none := by
  rcases markTokens_eq_nil_or nullable ranks with hnil | ⟨vs, w, hw, hwne, htrim, hlast⟩
  · exact absurd hnil hne
  · rw [hw, ← List.append_assoc] at hs
    obtain ⟨a, ha⟩ := hs.exists_trim_eq_append htrim hwne
    refine tupleInterior?_eq_none ?_
    rwa [ha, List.getLast?_append_of_ne_nil _ hwne]

/-- **A list of types is read piece by piece.** -/
theorem listOfChars_of_spaced {ts : List TypeExpr} (hne : ts ≠ [])
    (hcanonical : ∀ t ∈ ts, Canonical IsTypeName t)
    (hread : ∀ t ∈ ts, ∀ s, Spaced t.tokens s → ofChars s = t) {s : List Char}
    (hs : Spaced (listTokens ts) s) : listOfChars s = ts := by
  obtain ⟨pieces, hpieces, rfl⟩ := hs.exists_of_intercalate hne
  have hpne : pieces ≠ [] := by
    rintro rfl
    cases hpieces
    exact hne rfl
  have hboth : (∀ piece ∈ pieces, Segment ',' piece)
      ∧ pieces.map (ofChars ∘ Text.trim) = ts := by
    clear hs hne hpne
    induction hpieces with
    | nil => simp
    | @cons t piece ts pieces ht _ ih =>
      have hct := hcanonical t List.mem_cons_self
      obtain ⟨hsegment, hmap⟩ := ih (fun t' ht' => hcanonical t' (List.mem_cons_of_mem t ht'))
        fun t' ht' => hread t' (List.mem_cons_of_mem t ht')
      refine ⟨?_, ?_⟩
      · rw [List.forall_mem_cons]
        exact ⟨(hct.quiet piece ht).segment, hsegment⟩
      · rw [List.map_cons, hmap, Function.comp_apply,
          hread t List.mem_cons_self _ (ht.trim hct.trim_tokens)]
  rw [listOfChars_eq_map, split_intercalate (by decide) hpne hboth.1, List.map_map, hboth.2]

theorem map_mk_map_nullable (ranks : List ArrayRank) :
    (ranks.map ArrayRank.nullable).map ArrayRank.mk = ranks := by
  rw [List.map_map]
  exact List.map_id _

/-! ## One node at a time -/

/-- A name is no tuple. -/
theorem tupleInterior?_of_name {name : String} (h : IsTypeName name) :
    tupleInterior? name.toList = none :=
  tupleInterior?_eq_none fun hlast =>
    absurd (h.2 _ (List.mem_of_mem_getLast? hlast)) (by decide)

/-- A spaced name with marks is read. -/
theorem ofChars_of_spaced_named {name : String} {ranks : List ArrayRank} {nullable : Bool}
    (hname : IsTypeName name) {s : List Char}
    (hs : Spaced (tokens ⟨name, [], ranks, nullable, []⟩) s) :
    ofChars s = ⟨name, [], ranks, nullable, []⟩ := by
  have htrimmed := hs.trim (Canonical.named hname).trim_tokens
  rw [tokens_named] at hs htrimmed
  obtain ⟨x, y, hx, hy, hxy⟩ := htrimmed.exists_of_append
  obtain ⟨hbase, hrank⟩ := Outline.reads_named hname hx
  have hread := hbase.marks hrank hy
  rw [← List.foldl_append, ← hxy] at hread
  have hnone : tupleInterior? (Text.trim s) = none := by
    by_cases hmarks : markTokens nullable ranks = []
    · rw [hmarks] at hs
      obtain ⟨a, b, ha, hb, rfl⟩ := hs.exists_of_singleton
      rw [trim_surround ha hname.1 hb]
      exact tupleInterior?_of_name hname
    · exact tupleInterior?_of_spaced_marks hmarks hs
  rw [ofChars_of_reads hnone hread, tupleInterior?_of_name hname]
  dsimp only
  rw [map_mk_map_nullable, String.ofList_toList]
  rfl

/-- A spaced generic name with marks is read when its arguments are. -/
theorem ofChars_of_spaced_generic {name : String} {arguments : List TypeExpr}
    {ranks : List ArrayRank} {nullable : Bool} (hname : IsTypeName name) (hne : arguments ≠ [])
    (harguments : ∀ a ∈ arguments, Canonical IsTypeName a)
    (hread : ∀ a ∈ arguments, ∀ s, Spaced a.tokens s → ofChars s = a) {s : List Char}
    (hs : Spaced (tokens ⟨name, arguments, ranks, nullable, []⟩) s) :
    ofChars s = ⟨name, arguments, ranks, nullable, []⟩ := by
  have htrimmed := hs.trim (Canonical.generic hname hne harguments).trim_tokens
  rw [tokens_generic _ _ _ _ hne] at hs htrimmed
  obtain ⟨x, y, hx, hy, hxy⟩ := htrimmed.exists_of_append
  have hgroup : name.toList :: ['<'] :: (listTokens arguments ++ [['>']])
      = [name.toList] ++ ['<'] :: (listTokens arguments ++ [['>']]) := rfl
  rw [hgroup] at hx
  obtain ⟨a, z, ha, hz, rfl⟩ := hx.exists_of_append_cons
  obtain ⟨inner, b, hinner, hb, rfl⟩ := hz.exists_of_append_cons
  have hnested := (nested_of_spaced_list hne (fun t ht => (harguments t ht).quiet) hinner).1
  obtain ⟨hbase, hrank⟩ := Outline.reads_generic hname ha hnested hb.blank_of_nil
  have houtline := hbase.marks hrank hy
  rw [← List.foldl_append] at houtline
  have hshape : a ++ ('<' :: (inner ++ '>' :: b)) ++ y = Text.trim s := by
    rw [hxy]
    simp
  rw [hshape] at houtline
  have hnone : tupleInterior? (Text.trim s) = none := by
    by_cases hmarks : markTokens nullable ranks = []
    · rw [hmarks, List.append_nil, hgroup, ← List.cons_append, ← List.append_assoc] at hs
      obtain ⟨a, ha⟩ := hs.exists_trim_eq_append (by decide) (by simp)
      refine tupleInterior?_eq_none ?_
      rw [ha]
      simp
    · exact tupleInterior?_of_spaced_marks hmarks hs
  rw [ofChars_of_reads hnone houtline, tupleInterior?_of_name hname]
  dsimp only
  rw [map_mk_map_nullable, String.ofList_toList, List.map_singleton, List.flatten_singleton,
    listOfChars_of_spaced hne harguments hread hinner]

/-- A spaced tuple is read when its components are. Without marks it is read as a
tuple at once, with marks its parentheses are the name of an outline. -/
theorem ofChars_of_spaced_tuple {components : List TypeExpr} {ranks : List ArrayRank}
    {nullable : Bool} (hne : components ≠ [])
    (hcomponents : ∀ c ∈ components, Canonical IsTypeName c)
    (hread : ∀ c ∈ components, ∀ s, Spaced c.tokens s → ofChars s = c) {s : List Char}
    (hs : Spaced (tokens ⟨"", [], ranks, nullable, components⟩) s) :
    ofChars s = ⟨"", [], ranks, nullable, components⟩ := by
  have htrimmed := hs.trim (Canonical.tuple hne hcomponents).trim_tokens
  rw [tokens_tuple _ _ _ hne] at hs htrimmed
  obtain ⟨x, y, hx, hy, hxy⟩ := htrimmed.exists_of_append
  obtain ⟨a, inner, b, ha, hinner, hb, rfl⟩ := hx.exists_of_group
  have hlist := listOfChars_of_spaced hne hcomponents hread hinner
  by_cases hmarks : markTokens nullable ranks = []
  · obtain ⟨rfl, rfl⟩ := markTokens_eq_nil_iff.mp hmarks
    have htuple : Text.trim s = '(' :: (inner ++ [')']) := by
      rw [← trim_trim, hxy, trim_append_blank hy.blank_of_nil, List.singleton_append,
        List.singleton_append, trim_blank_append ha]
      have := trim_append_blank (a := '(' :: (inner ++ [')'])) hb
      rw [Outline.trim_parentheses] at this
      simpa using this
    rw [ofChars_of_tuple htuple, hlist]
    rfl
  · have hnested :=
      (nested_of_spaced_list hne (fun t ht => (hcomponents t ht).quiet) hinner).1
    obtain ⟨hbase, hrank⟩ := Outline.reads_tuple ha hnested hb
    have houtline := hbase.marks hrank hy
    rw [← List.foldl_append] at houtline
    have hshape : a ++ ('(' :: (inner ++ ')' :: b)) ++ y = Text.trim s := by
      rw [hxy]
      simp
    rw [hshape] at houtline
    have htuple : tupleInterior? ('(' :: (inner ++ [')'])) = some inner := by
      simp [tupleInterior?]
    rw [ofChars_of_reads (tupleInterior?_of_spaced_marks hmarks hs) houtline, htuple]
    dsimp only
    rw [map_mk_map_nullable, hlist]
    rfl

/-- **Every text that holds the tokens of a canonical type is read as that
type.** -/
theorem Canonical.ofChars_of_spaced {t : TypeExpr} (ht : Canonical IsTypeName t) :
    ∀ s, Spaced t.tokens s → ofChars s = t := by
  induction ht with
  | named hname => exact fun s hs => ofChars_of_spaced_named hname hs
  | generic hname hne hcanonical ih =>
    exact fun s hs => ofChars_of_spaced_generic hname hne hcanonical ih hs
  | tuple hne hcanonical ih =>
    exact fun s hs => ofChars_of_spaced_tuple hne hcanonical ih hs

/-- **Types read back.** The text of a canonical type is made of its tokens; every
text made of these tokens, with any white space between them, is read as that
type; and so is the text it is printed as. -/
theorem parse_of_canonical {t : TypeExpr} (ht : Canonical IsTypeName t) :
    Spaced t.tokens (toString t).toList
      ∧ (∀ s : String, Spaced t.tokens s.toList → parse s = t)
      ∧ parse (toString t) = t := by
  have htext : (toString t).toList = t.chars := String.toList_ofList
  have hspaced : Spaced t.tokens (toString t).toList := by
    rw [htext]
    exact ht.spaced_chars
  exact ⟨hspaced, fun s hs => ht.ofChars_of_spaced _ hs, ht.ofChars_of_spaced _ hspaced⟩

/-- The type `Map<int, (T, U?)[]?>?`. -/
def tupleMap : TypeExpr :=
  (generic "Map" [named "int",
    (tuple [named "T", (named "U").withNullable true]).withRanks [true]]).withNullable true

/-- White space may stand around every token of `Map<int, (T, U?)[]?>?`. -/
theorem parse_of_canonical_tupleMap :
    Canonical IsTypeName tupleMap
      ∧ Spaced tupleMap.tokens " Map <int\n,( T,U ?) [ ]? > ?".toList
      ∧ parse " Map <int\n,( T,U ?) [ ]? > ?" = tupleMap
      ∧ parse (toString tupleMap) = tupleMap := by
  have hint : Canonical IsTypeName (named "int") := .named (by decide)
  have hT : Canonical IsTypeName (named "T") := .named (by decide)
  have hU : Canonical IsTypeName ((named "U").withNullable true) := .named (by decide)
  have hpair : Canonical IsTypeName
      ((tuple [named "T", (named "U").withNullable true]).withRanks [true]) :=
    .tuple (List.cons_ne_nil _ _)
      (List.forall_mem_cons.mpr ⟨hT, List.forall_mem_singleton.mpr hU⟩)
  have hmap : Canonical IsTypeName tupleMap :=
    .generic (by decide) (List.cons_ne_nil _ _)
      (List.forall_mem_cons.mpr ⟨hint, List.forall_mem_singleton.mpr hpair⟩)
  have hspaced : Spaced tupleMap.tokens " Map <int\n,( T,U ?) [ ]? > ?".toList := by
    have blank : isBlankText [' '] = true := rfl
    have newline : isBlankText ['\n'] = true := rfl
    have none : isBlankText [] = true := rfl
    refine .cons blank (.cons blank (.cons none (.cons newline (.cons none (.cons blank ?_)))))
    refine .cons none (.cons none (.cons blank (.cons none (.cons blank (.cons blank ?_)))))
    exact .cons blank (.cons blank (.nil none))
  obtain ⟨-, hread, hprint⟩ := parse_of_canonical hmap
  exact ⟨hmap, hspaced, hread _ hspaced, hprint⟩

end TestScaffold.TypeExpr
