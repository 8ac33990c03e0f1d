import Mathlib.Order.Bounds.Basic
import TestScaffold.Proofs.Scan.Bracket
/-!
# The partner of a bracket

`closingBracket?` keeps one count for the brackets of all three kinds. What it finds can
be said without any count of its own, with the parts of the text that begin at the opening
bracket: the partner is the end of the first part that holds as many opening brackets as
closing ones, and no part does when there is no partner. Such a part may end with any
character; that the first one ends with a closing bracket is a result
(`isLeast_evenTo`).

On a text that is nested kind by kind this is the bracket that a reader with one stack for
the three kinds would close the group with (`closingBracket?_finds_partner`).
-/

namespace TestScaffold.Scan

open Text

/-! ## Parts of a text -/

/-- The part of a text from the byte `first` to the byte `last`, both included. -/
def IsPart (text part : List Char) (first last : Nat) : Prop :=
  ∃ before after, text = before ++ (part ++ after)
    ∧ byteLength before = first ∧ byteLength before + byteLength part = last + 1

/-- The part of a text between two offsets is there, and as many brackets open in it as
close. -/
def EvenTo (text : List Char) (start stop : Nat) : Prop :=
  start ≤ stop ∧ ∃ part, IsPart text part start stop
    ∧ part.countP isOpening = part.countP isClosing

section Prefixes

variable {a b rest rest' : List Char}

/-- Where a text is cut at a byte, it is cut in one way only. -/
theorem append_inj_of_byteLength (h : a ++ rest = b ++ rest') (hlen : byteLength a = byteLength b) :
    a = b ∧ rest = rest' := by
  have hcut := cutAtByte?_append a rest
  rw [h, hlen, cutAtByte?_append] at hcut
  exact ⟨(Prod.mk.inj (Option.some.inj hcut)).1.symm, (Prod.mk.inj (Option.some.inj hcut)).2.symm⟩

/-- Of two beginnings of a text, the one with no more bytes is a beginning of the other. -/
theorem prefix_of_byteLength_le {l : List Char} (ha : a <+: l) (hb : b <+: l)
    (hlen : byteLength a ≤ byteLength b) : a <+: b := by
  rcases List.prefix_or_prefix_of_prefix ha hb with h | ⟨more, rfl⟩
  · exact h
  · obtain ⟨rest, hrest⟩ := ha
    have hsame : byteLength (b ++ more) = byteLength b := by
      rw [byteLength_append] at hlen ⊢
      omega
    have heq := (append_inj_of_byteLength (List.append_nil (b ++ more)) hsame).1
    exact ⟨[], (List.append_nil _).trans heq⟩

end Prefixes

theorem utf8Size_of_isClosing {c : Char} (h : isClosing c = true) : c.utf8Size = 1 := by
  simp only [isClosing, Bool.or_eq_true, beq_iff_eq] at h
  rcases h with (rfl | rfl) | rfl <;> rfl

/-! ## Even parts -/

section Even

variable {pre l x y : List Char} {b : Char}

/-- **The even parts of an opening bracket**, character by character: behind the bracket
there is one closing bracket more than there are opening ones. -/
theorem evenTo_iff (hb : isOpening b = true) {o : Nat} :
    EvenTo (pre ++ b :: l) (byteLength pre) o ↔
      ∃ x, x <+: l ∧ byteLength pre + byteLength (b :: x) = o + 1
        ∧ 1 + x.countP isOpening = x.countP isClosing := by
  have hcount : ∀ x : List Char, (b :: x).countP isOpening = (b :: x).countP isClosing ↔
      1 + x.countP isOpening = x.countP isClosing := by
    intro x
    rw [List.countP_cons_of_pos hb,
      List.countP_cons_of_neg (by simp [isClosing_eq_false_of_isOpening hb]), Nat.add_comm]
  constructor
  · rintro ⟨hle, part, ⟨before, after, htext, hfirst, hlast⟩, heq⟩
    obtain ⟨rfl, hpart⟩ := append_inj_of_byteLength htext hfirst.symm
    cases part with
    | nil =>
      rw [byteLength_nil] at hlast
      omega
    | cons d x =>
      obtain ⟨rfl, rfl⟩ := List.cons.inj hpart
      exact ⟨x, List.prefix_append x after, hlast, (hcount x).mp heq⟩
  · rintro ⟨x, ⟨after, rfl⟩, hlast, heq⟩
    refine ⟨?_, b :: x, ⟨pre, after, rfl, rfl, hlast⟩, (hcount x).mpr heq⟩
    have := Char.utf8Size_pos b
    rw [byteLength_cons] at hlast
    omega

/-- There is no even part when never more brackets close than open behind the opening
bracket. -/
theorem not_evenTo (hb : isOpening b = true)
    (h : ∀ t, t <+: l → t.countP isClosing ≤ t.countP isOpening) (o : Nat) :
    ¬EvenTo (pre ++ b :: l) (byteLength pre) o := by
  rw [evenTo_iff hb]
  rintro ⟨x, hx, -, heq⟩
  have := h x hx
  omega

/-- **The first even part ends with the closing bracket** in front of which, behind the
opening bracket, as many brackets close as open, and never more. -/
theorem isLeast_evenTo {c : Char} (hb : isOpening b = true) (hc : isClosing c = true)
    (heq : x.countP isOpening = x.countP isClosing)
    (hle : ∀ t, t <+: x → t.countP isClosing ≤ t.countP isOpening) :
    IsLeast {o | EvenTo (pre ++ b :: (x ++ c :: y)) (byteLength pre) o}
      (byteLength pre + b.utf8Size + byteLength x) := by
  constructor
  · refine (evenTo_iff hb).mpr ⟨x ++ [c], ⟨y, by simp⟩, ?_, ?_⟩
    · rw [byteLength_cons, byteLength_append, byteLength_cons, byteLength_nil,
        utf8Size_of_isClosing hc]
      omega
    · rw [List.countP_append, List.countP_append, List.countP_singleton, List.countP_singleton,
        hc, isOpening_eq_false_of_isClosing hc, heq]
      exact Nat.add_comm 1 _
  · intro o ho
    obtain ⟨x', hx', hlast, heq'⟩ := (evenTo_iff hb).mp ho
    by_contra hlt
    -- a part that ends in front of the bracket would close more than has been opened
    have hprefix : x' <+: x := by
      refine prefix_of_byteLength_le hx' (List.prefix_append x _) ?_
      rw [byteLength_cons] at hlast
      omega
    have := hle x' hprefix
    omega

end Even

/-! ## The partner -/

/-- **Either nothing is found and no part is even, or the end of the first even part is
found.** -/
theorem closingBracket?_cases {text : List Char} {start : Nat} {b : Char}
    (hmem : (start, b) ∈ charsFrom 0 text) (hb : b ∈ openingBrackets) :
    (closingBracket? text start = none ∧ ∀ o, ¬EvenTo text start o)
      ∨ ∃ stop, closingBracket? text start = some stop
        ∧ IsLeast {o | EvenTo text start o} stop := by
  have hopen : isOpening b = true := isOpening_iff.mpr hb
  obtain ⟨pre, l, rfl, rfl⟩ := mem_charsFrom_iff.mp hmem
  rw [Nat.zero_add, closingBracket?_append hb]
  cases hcut : cutAtClose? 1 l with
  | none =>
    refine .inl ⟨rfl, not_evenTo hopen fun t ht => ?_⟩
    simpa using of_cutAtClose?_eq_none hcut t ht
  | some cut =>
    obtain ⟨group, after⟩ := cut
    obtain ⟨c, hc, rfl, heq, hle⟩ := of_cutAtClose?_eq_some hcut
    exact .inr ⟨_, rfl, isLeast_evenTo hopen hc (by simpa using heq) (by simpa using hle)⟩

/-- **A nested group is closed by the bracket of its own kind.** -/
theorem closingBracket?_group {before group after : List Char} {b c : Char}
    (hgroup : Nested group) (hclose : closer? b = some c) :
    closingBracket? (before ++ b :: (group ++ c :: after)) (byteLength before)
      = some (byteLength (before ++ b :: group)) := by
  have hb : b ∈ openingBrackets := isOpening_iff.mp (isOpening_of_closer? hclose)
  rw [closingBracket?_append hb, cutAtClose?_nested hgroup (isClosing_of_closer? hclose),
    byteLength_append, byteLength_cons, ← Nat.add_assoc]
  rfl

/-- **The bracket that is found is the partner.** For an opening bracket of any text it is
the end of the first part from there on that holds as many opening brackets as closing
ones, and there is none exactly when no part does. When the bracket opens a group that is
nested kind by kind, the one that is found is the bracket of its own kind that closes the
group. -/
theorem closingBracket?_finds_partner {text : List Char} {start : Nat} {b : Char}
    (hmem : (start, b) ∈ charsFrom 0 text) (hb : b ∈ openingBrackets) :
    (∀ stop, closingBracket? text start = some stop ↔ IsLeast {o | EvenTo text start o} stop)
      ∧ (closingBracket? text start = none ↔ ∀ o, ¬EvenTo text start o)
      ∧ ∀ before group c after, text = before ++ b :: (group ++ c :: after) →
          byteLength before = start → Nested group → closer? b = some c →
          closingBracket? text start = some (byteLength (before ++ b :: group))
            ∧ (byteLength (before ++ b :: group), c) ∈ charsFrom 0 text := by
  have hgroup : ∀ before group c after, text = before ++ b :: (group ++ c :: after) →
      byteLength before = start → Nested group → closer? b = some c →
      closingBracket? text start = some (byteLength (before ++ b :: group))
        ∧ (byteLength (before ++ b :: group), c) ∈ charsFrom 0 text := by
    rintro before group c after rfl rfl hnested hclose
    exact ⟨closingBracket?_group hnested hclose,
      mem_charsFrom_iff.mpr ⟨before ++ b :: group, after, by simp, Nat.zero_add _⟩⟩
  rcases closingBracket?_cases hmem hb with ⟨hfound, hnone⟩ | ⟨stop, hfound, hleast⟩
  · rw [hfound] at hgroup ⊢
    exact ⟨fun o => ⟨fun h => absurd h (by simp), fun h => absurd h.1 (hnone o)⟩,
      ⟨fun _ => hnone, fun _ => rfl⟩, hgroup⟩
  · rw [hfound] at hgroup ⊢
    refine ⟨fun o => ?_, ⟨fun h => absurd h (by simp), fun h => absurd hleast.1 (h stop)⟩, hgroup⟩
    rw [Option.some.injEq]
    exact ⟨fun h => h ▸ hleast, fun h => hleast.unique h⟩

/-- A call with characters of several bytes in front of the list and inside it. -/
def accentedCall : List Char := "Prüfe(Größe<(int, ü[])> größe) where".toList

/-- The list is closed by the last parenthesis: what is in front of it, the group of
angle brackets with a tuple and an array in it, is nested. -/
theorem closingBracket?_finds_partner_accentedCall :
    (6, '(') ∈ charsFrom 0 accentedCall ∧ '(' ∈ openingBrackets
      ∧ closingBracket? accentedCall 6 = some 35 ∧ (35, ')') ∈ charsFrom 0 accentedCall
      ∧ IsLeast {o | EvenTo accentedCall 6 o} 35 := by
  have hmem : (6, '(') ∈ charsFrom 0 accentedCall := by decide
  have hb : '(' ∈ openingBrackets := by decide
  obtain ⟨hleast, -, hgroup⟩ := closingBracket?_finds_partner hmem hb
  obtain ⟨hfound, hclose⟩ := hgroup "Prüfe".toList "Größe<(int, ü[])> größe".toList ')'
    " where".toList (by decide) (by decide) (by decide) rfl
  exact ⟨hmem, hb, hfound, hclose, (hleast 35).mp hfound⟩

end TestScaffold.Scan
