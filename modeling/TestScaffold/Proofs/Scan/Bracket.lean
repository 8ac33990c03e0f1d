import Mathlib.Order.Bounds.Basic
import TestScaffold.Proofs.Scan.TopLevel
/-!
# Brackets and their partners

The reader of declaration text passes string and character literals whole, while the two
searches for brackets count every bracket they meet. This module says what each search
finds, in terms of counting, and when that is what the reader of the same text would say.

`closingBracket?_eq_some_iff` and `findOpen?_eq_some_iff` hold of every text: the bracket
that closes a level is the first one up to which as many brackets close as open, and the
bracket that is found at depth zero is the first one in an unnested place, all brackets of
the text counted, inside literals too. On a text whose literals hold no brackets the
searches therefore agree with the reader; a bracket in a literal may drive them apart.
-/

namespace TestScaffold.Scan

/-- **A place where a level closes**: a bracket up to which, from the place `start` on, as
many brackets close as open. -/
def ClosesAt (shown : List (Nat × Char)) (start o : Nat) : Prop :=
  (∃ c, (o, c) ∈ shown ∧ (c ∈ openingBrackets ∨ c ∈ closingBrackets))
    ∧ start ≤ o
    ∧ countBetween openingBrackets shown start o = countBetween closingBrackets shown start o

/-! ## The closing bracket -/

/-- No bracket both opens and closes. -/
theorem isClosing_eq_false_of_isOpening {c : Char} (h : isOpening c = true) :
    isClosing c = false := by
  rw [← Bool.not_eq_true]
  intro hc
  rw [isOpening_eq_false_of_isClosing hc] at h
  exact Bool.noConfusion h

section Closing

variable {depth : Nat} {l before after : List Char}

/-- **One step of the search for a closing bracket** ends it, or goes on with a depth that
the character has changed. -/
theorem cutAtClose?_cons (depth : Nat) (c : Char) (l : List Char) :
    (isClosing c = true ∧ depth = 0 ∧ cutAtClose? (depth + 1) (c :: l) = some ([], l))
      ∨ ∃ d, d + (if isClosing c then 1 else 0) = depth + (if isOpening c then 1 else 0)
        ∧ cutAtClose? (depth + 1) (c :: l)
          = (cutAtClose? (d + 1) l).map fun (before, after) => (c :: before, after) := by
  cases hopen : isOpening c with
  | true =>
    rw [isClosing_eq_false_of_isOpening hopen]
    exact .inr ⟨depth + 1, rfl, cutAtClose?_of_opening hopen _ _⟩
  | false =>
    cases hclose : isClosing c with
    | true =>
      cases depth with
      | zero => exact .inl ⟨rfl, rfl, by simp [cutAtClose?, hopen, hclose]⟩
      | succ depth => exact .inr ⟨depth, rfl, cutAtClose?_of_closing hclose _ _⟩
    | false =>
      exact .inr ⟨depth, rfl,
        cutAtClose?_of_plain (isBracket_eq_false_iff.mpr ⟨hopen, hclose⟩) _ _⟩

/-- Where the search for a closing bracket ends, as many brackets close as have been
opened, and this is so for the first time. -/
theorem of_cutAtClose?_eq_some (h : cutAtClose? (depth + 1) l = some (before, after)) :
    ∃ c, isClosing c = true ∧ l = before ++ c :: after
      ∧ depth + before.countP isOpening = before.countP isClosing
      ∧ ∀ t, t <+: before → t.countP isClosing ≤ depth + t.countP isOpening := by
  induction l generalizing depth before with
  | nil => simp [cutAtClose?] at h
  | cons c l ih =>
    rcases cutAtClose?_cons depth c l with ⟨hc, rfl, hcut⟩ | ⟨d, hd, hcut⟩
    · obtain ⟨rfl, rfl⟩ := Prod.mk.inj (Option.some.inj (hcut.symm.trans h))
      exact ⟨c, hc, rfl, rfl, by simp⟩
    · obtain ⟨⟨b, a⟩, hb, he⟩ := Option.map_eq_some_iff.mp (hcut.symm.trans h)
      obtain ⟨rfl, rfl⟩ := Prod.mk.inj he
      obtain ⟨c', hc', rfl, heq, hle⟩ := ih hb
      refine ⟨c', hc', rfl, ?_, fun t ht => ?_⟩
      · rw [List.countP_cons, List.countP_cons]
        omega
      · rcases List.prefix_cons_iff.mp ht with rfl | ⟨t, rfl, ht'⟩
        · simp
        · have := hle t ht'
          rw [List.countP_cons, List.countP_cons]
          omega

/-- Where the search for a closing bracket finds nothing, never more brackets close than
have been opened. -/
theorem of_cutAtClose?_eq_none (h : cutAtClose? (depth + 1) l = none) (t : List Char)
    (ht : t <+: l) : t.countP isClosing ≤ depth + t.countP isOpening := by
  induction l generalizing depth t with
  | nil =>
    rw [List.prefix_nil.mp ht]
    simp
  | cons c l ih =>
    rcases cutAtClose?_cons depth c l with ⟨-, -, hcut⟩ | ⟨d, hd, hcut⟩
    · rw [hcut] at h
      exact absurd h (by simp)
    · rw [hcut, Option.map_eq_none_iff] at h
      rcases List.prefix_cons_iff.mp ht with rfl | ⟨t, rfl, ht'⟩
      · simp
      · have := ih h t ht'
        rw [List.countP_cons, List.countP_cons]
        omega

end Closing

/-- To count the characters of a list is to count those with a property, when the two agree. -/
theorem countOf_charsFrom {cs : List Char} (p : Char → Bool) (h : ∀ {c}, p c = true ↔ c ∈ cs)
    (offset : Nat) (s : List Char) : countOf cs (charsFrom offset s) = s.countP p := by
  induction s generalizing offset with
  | nil => rfl
  | cons c s ih =>
    rw [charsFrom, countOf_cons, ih, List.countP_cons]
    simp only [h]

section Group

variable {pre l x y : List Char} {b : Char}

/-- What is counted from an opening bracket to a place behind it. -/
theorem countBetween_charsFrom (cs : List Char) (pre x y : List Char) (b c : Char) :
    countBetween cs (charsFrom 0 (pre ++ b :: (x ++ c :: y))) (Text.byteLength pre)
        (Text.byteLength pre + b.utf8Size + Text.byteLength x)
      = countOf cs (charsFrom (Text.byteLength pre) (b :: (x ++ [c]))) := by
  have hs := increasing_charsFrom 0 (pre ++ b :: (x ++ c :: y))
  have hsplit : charsFrom 0 (pre ++ b :: (x ++ c :: y))
      = charsFrom 0 pre ++ ((Text.byteLength pre, b)
          :: charsFrom (Text.byteLength pre + b.utf8Size) (x ++ [c])
          ++ charsFrom (Text.byteLength pre + b.utf8Size + Text.byteLength (x ++ [c])) y) := by
    rw [charsFrom_append, Nat.zero_add, charsFrom, List.append_cons x c y, charsFrom_append,
      List.cons_append]
  have hlast := Char.utf8Size_pos c
  rw [hsplit] at hs ⊢
  refine countBetween_eq cs hs (by omega) (fun z hz => ?_) fun z hz => ?_
  · rw [charsFrom_append] at hz
    rcases List.mem_append.mp hz with hz | hz
    · have := (bounds_of_mem_charsFrom hz).2
      omega
    · rw [List.mem_singleton.mp hz]
  · have := (bounds_of_mem_charsFrom hz).1
    rw [Text.byteLength_append, Text.byteLength_cons] at this
    omega

/-- What is counted at the opening bracket alone. -/
theorem countBetween_self (cs : List Char) (pre l : List Char) (b : Char) :
    countBetween cs (charsFrom 0 (pre ++ b :: l)) (Text.byteLength pre) (Text.byteLength pre)
      = if b ∈ cs then 1 else 0 := by
  have hs := increasing_charsFrom 0 (pre ++ b :: l)
  have hsplit : charsFrom 0 (pre ++ b :: l)
      = charsFrom 0 pre ++ ((Text.byteLength pre, b) :: []
          ++ charsFrom (Text.byteLength pre + b.utf8Size) l) := by
    rw [charsFrom_append, Nat.zero_add, charsFrom]
    rfl
  rw [hsplit] at hs ⊢
  rw [countBetween_eq cs hs (Nat.le_refl _) (by simp) fun z hz => ?_, countOf_cons]
  · simp [countOf]
  · have := (bounds_of_mem_charsFrom hz).1
    have := Char.utf8Size_pos b
    omega

/-- **The places that close the level of an opening bracket**, character by character. -/
theorem closesAt_charsFrom_iff (hb : b ∈ openingBrackets) {o : Nat} :
    ClosesAt (charsFrom 0 (pre ++ b :: l)) (Text.byteLength pre) o ↔
      ∃ x c y, l = x ++ c :: y
        ∧ o = Text.byteLength pre + b.utf8Size + Text.byteLength x
        ∧ isBracket c = true
        ∧ 1 + (x ++ [c]).countP isOpening = (x ++ [c]).countP isClosing := by
  have hopen : isOpening b = true := isOpening_iff.mpr hb
  have hclose : isClosing b = false := isClosing_eq_false_of_isOpening hopen
  have hcount : ∀ x c y, l = x ++ c :: y →
      (countBetween openingBrackets (charsFrom 0 (pre ++ b :: l)) (Text.byteLength pre)
          (Text.byteLength pre + b.utf8Size + Text.byteLength x)
        = countBetween closingBrackets (charsFrom 0 (pre ++ b :: l)) (Text.byteLength pre)
          (Text.byteLength pre + b.utf8Size + Text.byteLength x)
      ↔ 1 + (x ++ [c]).countP isOpening = (x ++ [c]).countP isClosing) := by
    rintro x c y rfl
    rw [countBetween_charsFrom, countBetween_charsFrom, countOf_charsFrom isOpening isOpening_iff,
      countOf_charsFrom isClosing isClosing_iff, List.countP_cons, List.countP_cons, hopen, hclose]
    simp only [if_true, Bool.false_eq_true, if_false]
    omega
  constructor
  · rintro ⟨⟨c, hmem, hc⟩, hle, heq⟩
    obtain ⟨front, back, hsplit, rfl⟩ := mem_charsFrom_iff.mp hmem
    rw [Nat.zero_add] at hle heq ⊢
    -- the bracket stands behind the opening one, which closes nothing itself
    have hlt : Text.byteLength pre < Text.byteLength front := by
      refine Nat.lt_of_le_of_ne hle fun hpre => ?_
      rw [← hpre, countBetween_self, countBetween_self, if_pos hb,
        if_neg (notMem_closingBrackets hb)] at heq
      exact absurd heq (by decide)
    obtain ⟨x, rfl⟩ : ∃ x, front = pre ++ b :: x := by
      rcases List.append_eq_append_iff.mp hsplit with ⟨more, rfl, hmore⟩ | ⟨more, rfl, hmore⟩
      · cases more with
        | nil => simp at hlt
        | cons d more =>
          obtain ⟨rfl, -⟩ := List.cons.inj hmore
          exact ⟨more, rfl⟩
      · rw [Text.byteLength_append] at hlt
        omega
    have hl : l = x ++ c :: back := by simpa using hsplit
    have ho : Text.byteLength (pre ++ b :: x)
        = Text.byteLength pre + b.utf8Size + Text.byteLength x := by
      simp
      omega
    rw [ho] at heq ⊢
    exact ⟨x, c, back, hl, rfl, isBracket_eq_true_iff.mpr hc, (hcount x c back hl).mp heq⟩
  · rintro ⟨x, c, y, rfl, rfl, hc, heq⟩
    refine ⟨⟨c, ?_, isBracket_eq_true_iff.mp hc⟩, by omega, (hcount x c y rfl).mpr heq⟩
    exact mem_charsFrom_iff.mpr ⟨pre ++ b :: x, y, by simp, by simp; omega⟩

/-- A level closes nowhere when never more brackets close than open behind its opening
bracket. -/
theorem not_closesAt_charsFrom (hb : b ∈ openingBrackets)
    (h : ∀ t, t <+: l → t.countP isClosing ≤ t.countP isOpening) (o : Nat) :
    ¬ClosesAt (charsFrom 0 (pre ++ b :: l)) (Text.byteLength pre) o := by
  rw [closesAt_charsFrom_iff hb]
  rintro ⟨x, c, y, rfl, -, -, heq⟩
  have := h (x ++ [c]) ⟨y, by simp⟩
  omega

/-- A level closes first at the closing bracket in front of which, behind its opening
bracket, as many brackets close as open, and never more. -/
theorem isLeast_closesAt_charsFrom {c : Char} (hb : b ∈ openingBrackets)
    (hc : isClosing c = true) (heq : x.countP isOpening = x.countP isClosing)
    (hle : ∀ t, t <+: x → t.countP isClosing ≤ t.countP isOpening) :
    IsLeast {o | ClosesAt (charsFrom 0 (pre ++ b :: (x ++ c :: y))) (Text.byteLength pre) o}
      (Text.byteLength pre + b.utf8Size + Text.byteLength x) := by
  refine ⟨(closesAt_charsFrom_iff hb).mpr ⟨x, c, y, rfl, rfl, ?_, ?_⟩, fun o ho => ?_⟩
  · rw [isBracket, hc, Bool.or_true]
  · rw [List.countP_append, List.countP_append, List.countP_singleton, List.countP_singleton, hc,
      isOpening_eq_false_of_isClosing hc, heq]
    simp only [if_true, Bool.false_eq_true, if_false]
    omega
  · -- a place further in front would close more than has been opened
    obtain ⟨x', c', y', hsplit, rfl, -, heq'⟩ := (closesAt_charsFrom_iff hb).mp ho
    by_contra hlt
    have hprefix : x' ++ [c'] <+: x := by
      rcases List.append_eq_append_iff.mp hsplit with ⟨more, rfl, -⟩ | ⟨more, rfl, hmore⟩
      · rw [Text.byteLength_append] at hlt
        omega
      · cases more with
        | nil => simp at hlt
        | cons d more =>
          obtain ⟨rfl, -⟩ := List.cons.inj hmore
          exact ⟨more, by simp⟩
    have := hle _ hprefix
    omega

end Group

theorem cutAtByte?_append (pre rest : List Char) :
    Text.cutAtByte? (Text.byteLength pre) (pre ++ rest) = some (pre, rest) := by
  induction pre with
  | nil => cases rest <;> simp [Text.cutAtByte?]
  | cons c pre ih =>
    have := Char.utf8Size_pos c
    rw [List.cons_append, Text.cutAtByte?, Text.byteLength_cons, if_neg (by omega),
      if_pos (by omega), Nat.add_sub_cancel_left, ih]
    rfl

/-- The search for a closing bracket starts at the opening one. -/
theorem closingBracket?_append {pre l : List Char} {b : Char} (hb : b ∈ openingBrackets) :
    closingBracket? (pre ++ b :: l) (Text.byteLength pre)
      = (cutAtClose? 1 l).map fun (group, _) =>
          Text.byteLength pre + b.utf8Size + Text.byteLength group := by
  rw [closingBracket?, cutAtByte?_append]
  simp only [Option.bind_eq_bind, Option.bind_some]
  rw [cutAtClose?_of_opening (isOpening_iff.mpr hb)]
  cases cutAtClose? 1 l with
  | none => rfl
  | some cut => simp [Nat.add_assoc]

/-- **The closing bracket of a group**: the first bracket up to which, from the opening
one on, as many brackets of the text close as open. -/
theorem closingBracket?_eq_some_iff {text : List Char} {start : Nat} {b : Char}
    (hmem : (start, b) ∈ charsFrom 0 text) (hb : b ∈ openingBrackets) {o : Nat} :
    closingBracket? text start = some o ↔
      IsLeast {o | ClosesAt (charsFrom 0 text) start o} o := by
  obtain ⟨pre, l, rfl, rfl⟩ := mem_charsFrom_iff.mp hmem
  rw [Nat.zero_add, closingBracket?_append hb]
  cases hcut : cutAtClose? 1 l with
  | none =>
    have hnone : ∀ o, ¬ClosesAt (charsFrom 0 (pre ++ b :: l)) (Text.byteLength pre) o :=
      not_closesAt_charsFrom hb fun t ht => by simpa using of_cutAtClose?_eq_none hcut t ht
    exact ⟨fun h => absurd h (by simp), fun h => absurd h.1 (hnone o)⟩
  | some cut =>
    obtain ⟨group, after⟩ := cut
    obtain ⟨c, hc, rfl, heq, hle⟩ := of_cutAtClose?_eq_some hcut
    have hleast : IsLeast
        {o | ClosesAt (charsFrom 0 (pre ++ b :: (group ++ c :: after))) (Text.byteLength pre) o}
        (Text.byteLength pre + b.utf8Size + Text.byteLength group) :=
      isLeast_closesAt_charsFrom hb hc (by simpa using heq) (by simpa using hle)
    rw [Option.map_some, Option.some.injEq]
    exact ⟨fun h => h ▸ hleast, fun h => hleast.unique h⟩

/-! ## The opening bracket -/

/-- Where the search for a character at depth zero ends, it is at depth zero for the first
time. -/
theorem of_cutAtOpenFrom?_eq_some {b : Char} {depth : Nat} {l before after : List Char}
    (h : cutAtOpenFrom? b depth l = some (before, after)) :
    l = before ++ b :: after ∧ before.foldl depthAfter depth = 0
      ∧ ∀ x y, before = x ++ b :: y → x.foldl depthAfter depth ≠ 0 := by
  induction l generalizing depth before with
  | nil => simp [cutAtOpenFrom?] at h
  | cons c l ih =>
    rw [cutAtOpenFrom?] at h
    split at h
    · next hfound =>
      obtain ⟨rfl, rfl⟩ := Prod.mk.inj (Option.some.inj h)
      obtain ⟨rfl, rfl⟩ := hfound
      exact ⟨rfl, rfl, by simp⟩
    · next hnot =>
      obtain ⟨⟨b', a⟩, hcut, he⟩ := Option.map_eq_some_iff.mp h
      obtain ⟨rfl, rfl⟩ := Prod.mk.inj he
      obtain ⟨rfl, hzero, hfirst⟩ := ih hcut
      refine ⟨rfl, hzero, fun x y heq => ?_⟩
      cases x with
      | nil => exact fun hdepth => hnot ⟨(List.cons.inj heq).1, hdepth⟩
      | cons d x =>
        obtain ⟨rfl, heq'⟩ := List.cons.inj heq
        exact hfirst x y heq'

theorem of_cutAtOpenFrom?_eq_none {b : Char} {depth : Nat} {l : List Char}
    (h : cutAtOpenFrom? b depth l = none) (x y : List Char) (heq : l = x ++ b :: y) :
    x.foldl depthAfter depth ≠ 0 := by
  induction l generalizing depth x with
  | nil => exact absurd heq (by simp)
  | cons c l ih =>
    rw [cutAtOpenFrom?] at h
    split at h
    · exact absurd h (by simp)
    · next hnot =>
      cases x with
      | nil => exact fun hdepth => hnot ⟨(List.cons.inj heq).1, hdepth⟩
      | cons d x =>
        obtain ⟨rfl, heq'⟩ := List.cons.inj heq
        exact ih (Option.map_eq_none_iff.mp h) x heq'

/-- **Nothing is found at depth zero** exactly when the character stands at no such place. -/
theorem cutAtOpen?_eq_none_iff {b : Char} {s : List Char} :
    cutAtOpen? b s = none ↔ ∀ x y, s = x ++ b :: y → depthBehind x ≠ 0 := by
  refine ⟨of_cutAtOpenFrom?_eq_none, fun h => ?_⟩
  cases hcut : cutAtOpen? b s with
  | none => rfl
  | some cut =>
    obtain ⟨heq, hzero, -⟩ := of_cutAtOpenFrom?_eq_some hcut
    exact absurd hzero (h _ _ heq)

theorem depthOf_charsFrom (depth offset : Nat) (s : List Char) :
    depthOf depth (charsFrom offset s) = s.foldl depthAfter depth := by
  induction s generalizing depth offset with
  | nil => rfl
  | cons c s ih => rw [charsFrom, depthOf_cons, ih, List.foldl_cons]

/-- The unnested places of a text are those that a reader of all its brackets reaches at
depth zero. -/
theorem unnested_charsFrom_iff (x y : List Char) (c : Char) :
    Unnested (charsFrom 0 (x ++ c :: y)) (Text.byteLength x) ↔ x.foldl depthAfter 0 = 0 := by
  have hs := increasing_charsFrom 0 (x ++ c :: y)
  rw [charsFrom_append, charsFrom, Nat.zero_add] at hs ⊢
  rw [unnested_iff hs, depthOf_charsFrom]

/-- **The first character at depth zero**: the first unnested place that holds it, all
brackets of the text counted. -/
theorem findOpen?_eq_some_iff (b : Char) (text : List Char) {o : Nat} :
    findOpen? b text = some o ↔
      IsLeast {o | (o, b) ∈ charsFrom 0 text ∧ Unnested (charsFrom 0 text) o} o := by
  -- the places that are looked for, character by character
  have hplace : ∀ o, ((o, b) ∈ charsFrom 0 text ∧ Unnested (charsFrom 0 text) o) ↔
      ∃ x y, text = x ++ b :: y ∧ Text.byteLength x = o ∧ x.foldl depthAfter 0 = 0 := by
    intro o
    rw [mem_charsFrom_iff]
    constructor
    · rintro ⟨⟨x, y, rfl, rfl⟩, hun⟩
      rw [Nat.zero_add] at hun ⊢
      exact ⟨x, y, rfl, rfl, (unnested_charsFrom_iff x y b).mp hun⟩
    · rintro ⟨x, y, rfl, rfl, hzero⟩
      exact ⟨⟨x, y, rfl, Nat.zero_add _⟩, (unnested_charsFrom_iff x y b).mpr hzero⟩
  simp only [hplace]
  rw [findOpen?, cutAtOpen?]
  cases hcut : cutAtOpenFrom? b 0 text with
  | none =>
    refine ⟨fun h => absurd h (by simp), fun h => ?_⟩
    obtain ⟨x, y, heq, -, hzero⟩ := h.1
    exact absurd hzero (of_cutAtOpenFrom?_eq_none hcut x y heq)
  | some cut =>
    obtain ⟨before, after⟩ := cut
    obtain ⟨rfl, hzero, hfirst⟩ := of_cutAtOpenFrom?_eq_some hcut
    have hleast : IsLeast {o | ∃ x y, before ++ b :: after = x ++ b :: y
        ∧ Text.byteLength x = o ∧ x.foldl depthAfter 0 = 0} (Text.byteLength before) := by
      refine ⟨⟨before, after, rfl, rfl, hzero⟩, ?_⟩
      rintro _ ⟨x, y, heq, rfl, hx⟩
      rcases List.append_eq_append_iff.mp heq with ⟨more, rfl, -⟩ | ⟨more, rfl, hmore⟩
      · rw [Text.byteLength_append]
        omega
      · cases more with
        | nil => rw [List.append_nil]
        | cons d more =>
          obtain ⟨rfl, -⟩ := List.cons.inj hmore
          exact absurd hx (hfirst x more rfl)
    rw [Option.map_some, Option.some.injEq]
    exact ⟨fun h => h ▸ hleast, fun h => hleast.unique h⟩

/-! ## Literals without brackets -/

section Congruence

variable {shown shown' : List (Nat × Char)}

/-- Counting brackets only looks at the brackets. -/
theorem countBetween_filter {cs : List Char} (hcs : ∀ c ∈ cs, isBracket c = true)
    (shown : List (Nat × Char)) (first last : Nat) :
    countBetween cs (shown.filter fun x => isBracket x.2) first last
      = countBetween cs shown first last := by
  unfold countBetween
  rw [List.countP_filter]
  refine List.countP_congr fun x _ => ?_
  cases hx : cs.contains x.2 with
  | false => simp
  | true => simp [hcs x.2 (List.contains_iff_mem.mp hx)]

/-- Of two lists with the same brackets the same is counted. -/
theorem countBetween_congr {cs : List Char} (hcs : ∀ c ∈ cs, isBracket c = true)
    (h : (shown.filter fun x => isBracket x.2) = shown'.filter fun x => isBracket x.2)
    (first last : Nat) :
    countBetween cs shown first last = countBetween cs shown' first last := by
  rw [← countBetween_filter hcs, h, countBetween_filter hcs]

theorem isBracket_of_mem_opening : ∀ c ∈ openingBrackets, isBracket c = true :=
  fun _ hc => isBracket_eq_true_iff.mpr (.inl hc)

theorem isBracket_of_mem_closing : ∀ c ∈ closingBrackets, isBracket c = true :=
  fun _ hc => isBracket_eq_true_iff.mpr (.inr hc)

variable (h : (shown.filter fun x => isBracket x.2) = shown'.filter fun x => isBracket x.2)
include h

theorem mem_congr {o : Nat} {c : Char} (hc : isBracket c = true) :
    (o, c) ∈ shown ↔ (o, c) ∈ shown' := by
  have := congrArg (fun l => (o, c) ∈ l) h
  simpa [List.mem_filter, hc] using this

theorem closesAt_congr {start o : Nat} : ClosesAt shown start o ↔ ClosesAt shown' start o := by
  unfold ClosesAt
  rw [countBetween_congr isBracket_of_mem_opening h, countBetween_congr isBracket_of_mem_closing h]
  refine and_congr_left' (exists_congr fun c => and_congr_left fun hc => ?_)
  exact mem_congr h (isBracket_eq_true_iff.mpr hc)

theorem unnested_congr {o : Nat} : Unnested shown o ↔ Unnested shown' o := by
  unfold Unnested
  simp only [countBetween_congr isBracket_of_mem_opening h,
    countBetween_congr isBracket_of_mem_closing h]
  refine forall_congr' fun p => forall_congr' fun c => ?_
  constructor <;> intro hun hmem hc
  · exact hun ((mem_congr h (isBracket_of_mem_opening c hc)).mpr hmem) hc
  · exact hun ((mem_congr h (isBracket_of_mem_opening c hc)).mp hmem) hc

end Congruence

/-- The characters of a lexeme that are part of a literal. -/
def Lexeme.inside : Lexeme → List Char
  | plain _ => []
  | literal text => text

/-- **No literal holds a bracket.** -/
def BracketFree (lexemes : List Lexeme) : Prop :=
  ∀ x ∈ lexemes, ∀ c ∈ x.inside, c ∉ openingBrackets ∧ c ∉ closingBrackets

instance : DecidablePred BracketFree :=
  fun _ => inferInstanceAs (Decidable (∀ _ ∈ _, ∀ _ ∈ _, _))

/-- Without brackets in literals all brackets of a text are outside the literals. -/
theorem Lexed.filter_isBracket {front lexemes : List Lexeme} {text : List Char}
    (h : Lexed front text lexemes) (hfree : BracketFree lexemes) (offset : Nat) :
    ((charsFrom offset text).filter fun x => isBracket x.2)
      = (outsideFrom offset lexemes).filter fun x => isBracket x.2 := by
  induction h generalizing offset with
  | nil => rfl
  | plain _ _ ih =>
    rw [charsFrom, outsideFrom, List.filter_cons, List.filter_cons,
      ih fun x hx => hfree x (List.mem_cons_of_mem _ hx)]
  | @literal front lexemes text rest _ _ ih =>
    have hnone : ((charsFrom offset text).filter fun x => isBracket x.2) = [] := by
      refine List.filter_eq_nil_iff.mpr fun x hx => ?_
      obtain ⟨before, after, rfl, -⟩ := mem_charsFrom_iff.mp hx
      rw [isBracket_eq_true_iff, not_or]
      exact hfree _ List.mem_cons_self x.2 (by simp [Lexeme.inside])
    rw [charsFrom_append, List.filter_append, hnone, List.nil_append, outsideFrom,
      ih fun x hx => hfree x (List.mem_cons_of_mem _ hx)]

section BracketFree

variable {text : List Char} {lexemes : List Lexeme} (h : Lexed [] text lexemes)
  (hfree : BracketFree lexemes)
include h hfree

/-- **Where no literal holds a bracket, the closing bracket is the reader's.** -/
theorem Lexed.closingBracket?_eq_some_iff {start o : Nat} {b : Char}
    (hmem : (start, b) ∈ outsideFrom 0 lexemes) (hb : b ∈ openingBrackets) :
    closingBracket? text start = some o ↔
      IsLeast {o | ClosesAt (outsideFrom 0 lexemes) start o} o := by
  have hfilter := h.filter_isBracket hfree 0
  rw [Scan.closingBracket?_eq_some_iff ((h.outsideFrom_sublist 0).subset hmem) hb]
  simp only [closesAt_congr hfilter]

/-- **Where no literal holds a bracket, the opening bracket is the reader's.** -/
theorem Lexed.findOpen?_eq_some_iff {o : Nat} {b : Char} (hb : b ∈ openingBrackets) :
    findOpen? b text = some o ↔
      IsLeast {o | (o, b) ∈ outsideFrom 0 lexemes ∧ Unnested (outsideFrom 0 lexemes) o} o := by
  have hfilter := h.filter_isBracket hfree 0
  rw [Scan.findOpen?_eq_some_iff]
  simp only [mem_congr hfilter (isBracket_of_mem_opening b hb), unnested_congr hfilter]

end BracketFree

end TestScaffold.Scan
