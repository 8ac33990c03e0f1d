import Mathlib.Data.List.Infix
import TestScaffold.Proofs.Declaration.Written
import TestScaffold.Proofs.Scan.Splitting
/-!
# What cleaning takes away

Three passes clean the text in front of a name, one after another: the first takes line
comments, the second block comments, the third attribute groups. Each is blind to what the
others are about.

For comments this shows. The body of a line comment is gone before anything in it can
matter, but the body of a block comment is still there when line comments are taken, and two
slashes in its last line take the end of the comment along. `clean_comment_iff` says that
the bodies of comments do not matter to the declaration but for this case.

Attribute groups and array ranks are told apart by the first character in the brackets. In
a text put together of groups and of code whose square brackets are ranks, the groups go and
the code stays (`clean_pieces`).
-/

namespace TestScaffold.Declaration

open Scan Text

/-! ## Line comments -/

/-- Two slashes begin a line comment. -/
theorem dropLineComments_slashes (s : List Char) :
    dropLineComments false ('/' :: '/' :: s) = ' ' :: dropLineComments true s := rfl

/-- The end of its line ends a line comment. -/
theorem dropLineComments_newline (s : List Char) :
    dropLineComments true ('\n' :: s) = '\n' :: dropLineComments false s := by
  rw [dropLineComments.eq_def]
  dsimp only
  rw [if_pos rfl, if_pos rfl]

theorem dropLineComments_true_cons {c : Char} (h : c ≠ '\n') (s : List Char) :
    dropLineComments true (c :: s) = dropLineComments true s := by
  rw [dropLineComments.eq_def]
  dsimp only
  rw [if_pos rfl, if_neg h]

/-- A line comment runs to the end of its line. -/
theorem dropLineComments_inside {l : List Char} (h : '\n' ∉ l) (s : List Char) :
    dropLineComments true (l ++ s) = dropLineComments true s := by
  induction l with
  | nil => rfl
  | cons c l ih =>
    rw [List.mem_cons, not_or] at h
    rw [List.cons_append, dropLineComments_true_cons (Ne.symm h.1), ih h.2]

/-- Whether a text ends inside a line comment. -/
def endsInLineComment : Bool → List Char → Bool
  | inside, [] => inside
  | true, c :: rest => endsInLineComment (c != '\n') rest
  | false, '/' :: '/' :: rest => endsInLineComment true rest
  | false, _ :: rest => endsInLineComment false rest

/-- **Line comments are taken** from a text and then from what follows it, as long as no
slash of the one meets a slash of the other. -/
theorem dropLineComments_append {s : List Char} (hs : s.head? ≠ some '/') (inside : Bool)
    (b : List Char) :
    dropLineComments inside (b ++ s)
      = dropLineComments inside b ++ dropLineComments (endsInLineComment inside b) s := by
  fun_induction endsInLineComment inside b with
  | case1 inside => cases inside <;> rfl
  | case2 c rest ih =>
    by_cases hc : c = '\n'
    · subst hc
      rw [List.cons_append, dropLineComments_newline, dropLineComments_newline, List.cons_append]
      exact congrArg _ ih
    · have hinside : (c != '\n') = true := by simpa using hc
      rw [hinside] at ih ⊢
      rw [List.cons_append, dropLineComments_true_cons hc, dropLineComments_true_cons hc, ih]
  | case3 rest ih =>
    rw [List.cons_append, List.cons_append, dropLineComments_slashes, ih,
      dropLineComments_slashes, List.cons_append]
  | case4 c rest hplain ih =>
    have hrest : c = '/' → (rest ++ s).head? ≠ some '/' := by
      rintro rfl
      cases rest with
      | nil => exact hs
      | cons d rest =>
        rintro ⟨⟩
        exact hplain rest rfl rfl
    have hrest' : c = '/' → rest.head? ≠ some '/' := by
      rintro rfl hhead
      obtain ⟨rest', rfl⟩ := List.head?_eq_some_iff.mp hhead
      exact hplain rest' rfl rfl
    rw [List.cons_append, dropLineComments_cons hrest, ih, dropLineComments_cons hrest',
      List.cons_append]

/-- **Two slashes in the last line** of a text. -/
def SlashesInLastLine (b : List Char) : Prop :=
  ∃ x y, b = x ++ '/' :: '/' :: y ∧ '\n' ∉ y

theorem not_slashesInLastLine_nil : ¬ SlashesInLastLine [] := by
  rintro ⟨x, y, h, -⟩
  simp at h

theorem slashesInLastLine_cons {c : Char} {b : List Char} :
    SlashesInLastLine (c :: b) ↔
      (c = '/' ∧ ∃ y, b = '/' :: y ∧ '\n' ∉ y) ∨ SlashesInLastLine b := by
  constructor
  · rintro ⟨x, y, h, hy⟩
    cases x with
    | nil =>
      obtain ⟨rfl, rfl⟩ := List.cons.inj h
      exact .inl ⟨rfl, y, rfl, hy⟩
    | cons d x => exact .inr ⟨x, y, (List.cons.inj h).2, hy⟩
  · rintro (⟨rfl, y, rfl, hy⟩ | ⟨x, y, rfl, hy⟩)
    · exact ⟨[], y, rfl, hy⟩
    · exact ⟨c :: x, y, rfl, hy⟩

/-- **A text ends inside a line comment** when there are two slashes in its last line, or
when it began there and is all in one line. -/
theorem endsInLineComment_iff {inside : Bool} {b : List Char} :
    endsInLineComment inside b = true ↔
      (inside = true ∧ '\n' ∉ b) ∨ SlashesInLastLine b := by
  fun_induction endsInLineComment inside b with
  | case1 inside => simp [not_slashesInLastLine_nil]
  | case2 c rest ih =>
    rw [ih, slashesInLastLine_cons]
    grind
  | case3 rest ih =>
    rw [ih, slashesInLastLine_cons, slashesInLastLine_cons]
    grind
  | case4 c rest hplain ih =>
    rw [ih, slashesInLastLine_cons]
    grind

instance : DecidablePred SlashesInLastLine := fun b =>
  decidable_of_iff (endsInLineComment false b = true) (by simp [endsInLineComment_iff])

/-- Taking line comments puts nothing but spaces into a text. -/
theorem mem_of_mem_dropLineComments {inside : Bool} {s : List Char} {c : Char}
    (h : c ∈ dropLineComments inside s) : c ∈ s ∨ c = ' ' := by
  fun_induction dropLineComments inside s with
  | _ => grind

/-! ## Block comments -/

/-- The end of a block comment stands nowhere in a text when no slash follows a star. -/
theorem not_infix_closing_iff {s : List Char} :
    ¬ ['*', '/'] <:+: s ↔ s.IsChain fun a b => a = '*' → b ≠ '/' := by
  rw [List.isChain_iff_forall_rel_of_append_cons_cons]
  constructor
  · rintro h a b x y rfl rfl rfl
    exact h ⟨x, y, by simp⟩
  · rintro h ⟨x, y, rfl⟩
    exact @h '*' '/' x y (by simp) rfl rfl

/-- Taking line comments makes no end of a block comment: what it puts into a text is a
space. -/
theorem isChain_dropLineComments {a : Char} {inside : Bool} {b : List Char}
    (hb : b.IsChain fun a b => a = '*' → b ≠ '/')
    (hab : inside = false → (a :: b).IsChain fun a b => a = '*' → b ≠ '/') :
    (a :: dropLineComments inside b).IsChain fun a b => a = '*' → b ≠ '/' := by
  fun_induction dropLineComments inside b generalizing a with
  | case1 => exact .singleton a
  | case2 rest ih => exact .cons_cons (fun _ => by decide) (ih hb.tail fun _ => hb)
  | case3 c rest hc ih => exact ih hb.tail fun h => Bool.noConfusion h
  | case4 inside hinside rest ih =>
    exact .cons_cons (fun _ => by decide) (ih hb.tail.tail fun h => Bool.noConfusion h)
  | case5 inside hinside rest hrest ih =>
    have hrel := (List.isChain_cons_cons.mp (hab (Bool.not_eq_true _ ▸ hinside))).1
    exact .cons_cons hrel (ih hb.tail fun _ => hb)
  | case6 inside c rest hinside hc ih =>
    have hrel := (List.isChain_cons_cons.mp (hab (Bool.not_eq_true _ ▸ hinside))).1
    exact .cons_cons hrel (ih hb.tail fun _ => hb)

theorem not_infix_dropLineComments {b : List Char} (h : ¬ ['*', '/'] <:+: b) :
    ¬ ['*', '/'] <:+: dropLineComments false b := by
  rw [not_infix_closing_iff] at h ⊢
  have hspace : (' ' :: b).IsChain fun a b => a = '*' → b ≠ '/' :=
    h.cons fun _ _ hc => absurd hc (by decide)
  exact (isChain_dropLineComments h fun _ => hspace).tail

/-- **A block comment** runs to the first place where a slash follows a star. -/
theorem dropBlockComments_comment {b : List Char} (h : ¬ ['*', '/'] <:+: b) (s : List Char) :
    dropBlockComments ('/' :: '*' :: (b ++ '*' :: '/' :: s)) = ' ' :: dropBlockComments s := by
  have hcut : cutAt? ['*', '/'] (b ++ (['*', '/'] ++ s)) = some (b, s) := by
    refine cutAt?_append (by simp) ?_
    rintro x hx ⟨x', rfl⟩ ⟨r, hr⟩
    -- an earlier end would stand in the body or begin with the last star of the body
    match x, hx with
    | [c], _ => simp at hr
    | c :: d :: x, _ =>
      obtain ⟨rfl, rfl, -⟩ : '*' = c ∧ '/' = d ∧ _ := by simpa using hr
      exact h ⟨x', x, by simp⟩
  rw [dropBlockComments]
  split
  · next after hcut' =>
    have hcut : cutAt? ['*', '/'] (b ++ '*' :: '/' :: s) = some (b, s) := hcut
    rw [hcut] at hcut'
    obtain ⟨-, rfl⟩ := Prod.mk.inj (Option.some.inj hcut')
    rfl
  · next hnone => exact absurd (hnone.symm.trans hcut) (by simp)

/-- A block comment that is never closed stays. -/
theorem dropBlockComments_unclosed {s : List Char} (h : ¬ ['*', '/'] <:+: s) :
    dropBlockComments ('/' :: '*' :: s) = '/' :: '*' :: s := by
  rw [dropBlockComments]
  split
  · next hcut =>
    rw [cutAt?_eq_none_iff.mpr h] at hcut
    exact absurd hcut (by simp)
  · rfl

/-! ## Attribute groups -/

/-- **Array ranks only**: every square bracket that opens is closed behind nothing but
commas and blanks. -/
def RanksOnly (text : List Char) : Prop :=
  ∀ x y, text = x ++ '[' :: y →
    ∃ r z, y = r ++ ']' :: z ∧ ∀ c ∈ r, c = ',' ∨ isBlank c = true

/-- A rank is closed by the first character in it that is neither a comma nor a blank. -/
theorem ranksOnly_iff {text : List Char} :
    RanksOnly text ↔ ∀ t ∈ text.tails, t.head? = some '[' →
      (t.tail.dropWhile fun c => c == ',' || isBlank c).head? = some ']' := by
  constructor
  · intro h t ht hhead
    obtain ⟨y, rfl⟩ := List.head?_eq_some_iff.mp hhead
    obtain ⟨x, rfl⟩ := (List.mem_tails _ _).mp ht
    obtain ⟨r, z, rfl, hr⟩ := h x y rfl
    have hdrop : (r ++ ']' :: z).dropWhile (fun c => c == ',' || isBlank c) = ']' :: z := by
      rw [List.dropWhile_append_of_pos (by simpa using hr),
        List.dropWhile_cons_of_neg (by decide)]
    rw [List.tail_cons, hdrop, List.head?_cons]
  · rintro h x y rfl
    have hhead := h ('[' :: y) ((List.mem_tails _ _).mpr ⟨x, rfl⟩) rfl
    obtain ⟨z, hz⟩ := List.head?_eq_some_iff.mp hhead
    refine ⟨y.takeWhile fun c => c == ',' || isBlank c, z, ?_, fun c hc => ?_⟩
    · rw [← hz, List.tail_cons, List.takeWhile_append_dropWhile]
    · simpa using List.mem_takeWhile_imp hc

instance : DecidablePred RanksOnly := fun _ => decidable_of_iff' _ ranksOnly_iff

theorem RanksOnly.of_notMem {text : List Char} (h : '[' ∉ text) : RanksOnly text := by
  rintro x y rfl
  exact absurd (by simp) h

theorem RanksOnly.tail {c : Char} {text : List Char} (h : RanksOnly (c :: text)) :
    RanksOnly text := fun x y htext => h (c :: x) y (by rw [htext, List.cons_append])

/-- Behind the bracket of a rank no identifier begins. -/
theorem startsIdentifier_rank {r : List Char} (h : ∀ c ∈ r, c = ',' ∨ isBlank c = true)
    (s : List Char) : startsIdentifier (trimStart (r ++ ']' :: s)) = false := by
  induction r with
  | nil => rfl
  | cons c r ih =>
    obtain ⟨hc, hr⟩ := List.forall_mem_cons.mp h
    rcases hc with rfl | hc
    · rfl
    · rw [List.cons_append, trimStart, List.dropWhile_cons_of_pos hc]
      exact ih hr

/-- **Ranks stay**, whatever stands behind them. -/
theorem RanksOnly.dropAttributeGroups_append {a : List Char} (h : RanksOnly a) (s : List Char) :
    dropAttributeGroups (a ++ s) = a ++ dropAttributeGroups s := by
  induction a with
  | nil => rfl
  | cons c a ih =>
    have hno : ¬ (c = '[' ∧ startsIdentifier (trimStart (a ++ s)) = true) := by
      rintro ⟨rfl, hstart⟩
      obtain ⟨r, z, rfl, hr⟩ := h [] a rfl
      rw [List.append_assoc, List.cons_append, startsIdentifier_rank hr] at hstart
      exact Bool.noConfusion hstart
    rw [List.cons_append, dropAttributeGroups, if_neg hno, ih h.tail, List.cons_append]

theorem dropAttributeGroups_of_notMem {s : List Char} (h : '[' ∉ s) :
    dropAttributeGroups s = s := by
  have := (RanksOnly.of_notMem h).dropAttributeGroups_append []
  rwa [List.append_nil, dropAttributeGroups, List.append_nil] at this

/-! ## The bodies of comments -/

/-- A text that holds neither slashes nor opening square brackets once the line comments
are taken is only normalised. -/
theorem clean_of_dropLineComments {text s : List Char} (h : dropLineComments false text = s)
    (hslash : '/' ∉ s) (hopen : '[' ∉ s) : clean text = Text.normalize s := by
  unfold clean
  dsimp only
  rw [h, dropBlockComments_eq hslash, dropAttributeGroups_of_notMem hopen, ite_self]

/-- A block comment with the given body. -/
def blockComment (body : List Char) : List Char :=
  '/' :: '*' :: (body ++ ['*', '/'])

/-- A line comment with the given body, and the end of its line. -/
def lineComment (body : List Char) : List Char :=
  '/' :: '/' :: (body ++ ['\n'])

section Comments

variable {p q : List Char} (hp : '/' ∉ p) (hq : '/' ∉ q)
include hp

/-- What the first pass makes of a block comment. -/
theorem dropLineComments_blockComment (q b : List Char) :
    dropLineComments false (p ++ (blockComment b ++ q))
      = p ++ '/' :: '*' :: (dropLineComments false b
        ++ dropLineComments (endsInLineComment false b) ('*' :: '/' :: q)) := by
  have hshape : blockComment b ++ q = '/' :: '*' :: (b ++ '*' :: '/' :: q) := by
    simp [blockComment]
  rw [hshape, dropLineComments_append_plain hp, dropLineComments_cons (by simp),
    dropLineComments_cons (by simp), dropLineComments_append (by simp)]

include hq

/-- A block comment whose last line holds no two slashes is taken. -/
theorem clean_blockComment {b : List Char} (hb : ¬ ['*', '/'] <:+: b)
    (h : ¬ SlashesInLastLine b) : clean (p ++ (blockComment b ++ q)) = clean (p ++ ' ' :: q) := by
  have hends : endsInLineComment false b = false := by
    rw [← Bool.not_eq_true, endsInLineComment_iff]
    simpa using h
  have hblock : dropLineComments false ('*' :: '/' :: q) = '*' :: '/' :: q := by
    have hhead : q.head? ≠ some '/' := fun hhead => hq (List.mem_of_mem_head? hhead)
    rw [dropLineComments_cons (by simp), dropLineComments_cons fun _ => hhead,
      dropLineComments_eq hq]
  have hslash : '/' ∉ p ++ ' ' :: q := by simp [hp, hq]
  unfold clean
  dsimp only
  rw [dropLineComments_blockComment hp, hends, hblock, dropBlockComments_append_plain hp,
    dropBlockComments_comment (not_infix_dropLineComments hb), dropBlockComments_eq hq,
    dropLineComments_eq hslash, dropBlockComments_eq hslash]

/-- **Two slashes in its last line keep a block comment in the text**: the first pass takes
its end, so that the second one finds none. -/
theorem slash_mem_clean_blockComment (hopen : '[' ∉ p) {b : List Char}
    (hb : ¬ ['*', '/'] <:+: b) (h : SlashesInLastLine b) :
    '/' ∈ clean (p ++ (blockComment b ++ q)) := by
  have hends : endsInLineComment false b = true := endsInLineComment_iff.mpr (.inr h)
  have hrest : dropLineComments true ('*' :: '/' :: q) = dropLineComments true q :=
    dropLineComments_inside (l := ['*', '/']) (by decide) q
  have hnone : ¬ ['*', '/'] <:+: dropLineComments false b ++ dropLineComments true q := by
    have hq' : '/' ∉ dropLineComments true q := fun hmem =>
      (mem_of_mem_dropLineComments hmem).elim hq (by decide)
    have hfree : (dropLineComments true q).IsChain fun a b => a = '*' → b ≠ '/' :=
      not_infix_closing_iff.mp fun hclosing => hq' (hclosing.subset (by simp))
    rw [not_infix_closing_iff]
    refine (not_infix_closing_iff.mp (not_infix_dropLineComments hb)).append hfree ?_
    rintro _ _ _ hmem _ rfl
    exact hq' (List.mem_of_mem_head? hmem)
  have hcode : dropBlockComments (dropLineComments false (p ++ (blockComment b ++ q)))
      = (p ++ ['/']) ++ '*' :: (dropLineComments false b ++ dropLineComments true q) := by
    rw [dropLineComments_blockComment hp, hends, hrest, dropBlockComments_append_plain hp,
      dropBlockComments_unclosed hnone, List.append_assoc]
    rfl
  have hranks : RanksOnly (p ++ ['/']) := .of_notMem (by simp [hopen])
  unfold clean
  dsimp only
  rw [hcode]
  refine (mem_ink_iff.mp ?_).1
  rw [ink_normalize, mem_ink_iff]
  refine ⟨?_, by decide⟩
  split
  · rw [hranks.dropAttributeGroups_append]
    simp
  · simp

/-- A line comment is taken, and the end of its line separates what stands around it. -/
theorem clean_lineComment (hopen : '[' ∉ p ++ q) {l : List Char} (hl : '\n' ∉ l) :
    clean (p ++ (lineComment l ++ q)) = clean (p ++ '\n' :: q) := by
  have hshape : lineComment l ++ q = '/' :: '/' :: (l ++ '\n' :: q) := by simp [lineComment]
  have hline : dropLineComments false (p ++ (lineComment l ++ q)) = p ++ ' ' :: '\n' :: q := by
    rw [hshape, dropLineComments_append_plain hp, dropLineComments_slashes,
      dropLineComments_inside hl, dropLineComments_newline, dropLineComments_eq hq]
  rw [clean_of_dropLineComments hline (by simp [hp, hq]) (by simpa using hopen),
    clean_of_dropLineComments (dropLineComments_eq (by simp [hp, hq])) (by simp [hp, hq])
      (by simpa using hopen), normalize_append_blanks p q (by decide) (by decide)]

end Comments

/-- **The body of a comment does not matter to the declaration**, but for one case: a block
comment is as good as a space exactly when there are no two slashes in its last line, and a
line comment is as good as the end of its line. -/
theorem clean_comment_iff {p q : List Char}
    (h : ∀ c ∈ p ++ q, c ≠ '/' ∧ isBracket c = false) :
    (∀ b, ¬ ['*', '/'] <:+: b →
      (clean (p ++ (blockComment b ++ q)) = clean (p ++ ' ' :: q) ↔ ¬ SlashesInLastLine b))
      ∧ ∀ l, '\n' ∉ l → clean (p ++ (lineComment l ++ q)) = clean (p ++ '\n' :: q) := by
  have hslash : '/' ∉ p ++ q := fun hmem => (h _ hmem).1 rfl
  have hopen : '[' ∉ p ++ q := fun hmem => absurd (h _ hmem).2 (by decide)
  obtain ⟨hp, hq⟩ : '/' ∉ p ∧ '/' ∉ q := by simpa using hslash
  refine ⟨fun b hb => ⟨fun heq hlast => ?_, clean_blockComment hp hq hb⟩,
    fun l hl => clean_lineComment hp hq hopen hl⟩
  -- the comment leaves a slash behind, and without it there is none
  have hmem := slash_mem_clean_blockComment hp hq (fun hmem => hopen (by simp [hmem])) hb hlast
  have hspace : '/' ∉ p ++ ' ' :: q := by simp [hp, hq]
  rw [heq, clean_of_dropLineComments (dropLineComments_eq hspace) hspace (by simpa using hopen)]
    at hmem
  have hslash' : '/' ∈ ink (p ++ ' ' :: q) := by
    rw [← ink_normalize]
    exact mem_ink_iff.mpr ⟨hmem, by decide⟩
  exact hspace (mem_ink_iff.mp hslash').1

/-- The body of a comment with a link and an attribute, each on a line of its own. -/
def linkedBody : List Char :=
  " http://x\n[Old] ".toList

/-- Two slashes and a group in the body of a comment do not matter when they stand in a line
before the last one or in a line comment. -/
theorem clean_comment_iff_linked :
    (∀ c ∈ "public ".toList ++ "int ".toList, c ≠ '/' ∧ isBracket c = false)
      ∧ clean ("public ".toList ++ (blockComment linkedBody ++ "int ".toList))
        = clean ("public ".toList ++ ' ' :: "int ".toList)
      ∧ clean ("public ".toList ++ (lineComment " /* http://x [Old".toList ++ "int ".toList))
        = clean ("public ".toList ++ '\n' :: "int ".toList)
      ∧ clean ("public ".toList ++ ' ' :: "int ".toList) = "public int".toList := by
  have h : ∀ c ∈ "public ".toList ++ "int ".toList, c ≠ '/' ∧ isBracket c = false := by decide
  have hbody : ¬ ['*', '/'] <:+: linkedBody := cutAt?_eq_none_iff.mp (by decide)
  obtain ⟨hblock, hline⟩ := clean_comment_iff h
  exact ⟨h, (hblock linkedBody hbody).mpr (by decide),
    hline " /* http://x [Old".toList (by decide), by decide +kernel⟩

/-- **A link in a block comment hides the code behind it**: the first pass takes the end of
the comment along with the rest of its line, so that the beginning of the comment stays. -/
theorem link_hides_code :
    (∀ c ∈ "public ".toList ++ " int ".toList, c ≠ '/' ∧ isBracket c = false)
      ∧ ¬ ['*', '/'] <:+: " http://x ".toList
      ∧ clean ("public ".toList ++ (blockComment " http://x ".toList ++ " int ".toList))
        = "public /* http:".toList
      ∧ clean ("public ".toList ++ ' ' :: " int ".toList) = "public int".toList := by
  exact ⟨by decide, cutAt?_eq_none_iff.mp (by decide), by decide +kernel, by decide +kernel⟩

/-! ## Groups and ranks -/

/-- **The text of an attribute group**: an identifier begins behind any blanks, and the text
behind its first character is nested. -/
def IsGroupText (inner : List Char) : Prop :=
  ∃ b c t, inner = b ++ c :: t ∧ isBlankText b = true ∧ (c.isAlpha = true ∨ c = '_') ∧ Nested t

/-- **A piece of the text** in front of a name. -/
inductive Piece where
  /-- An attribute group, by the text between its brackets. -/
  | group (inner : List Char)
  /-- Code. -/
  | code (text : List Char)
deriving DecidableEq, Repr

namespace Piece

/-- A piece as it is written. -/
def chars : Piece → List Char
  | group inner => '[' :: (inner ++ [']'])
  | code text => text

/-- The text of a piece that is code. -/
def code? : Piece → Option (List Char)
  | group _ => none
  | code text => some text

/-- **A proper piece** is a group with the text of one, or code whose square brackets are
array ranks. -/
def Proper : Piece → Prop
  | group inner => IsGroupText inner
  | code text => RanksOnly text

/-- Two pieces that are not both code. -/
def Apart (x y : Piece) : Prop :=
  x.code? = none ∨ y.code? = none

/-- What stays of a piece. -/
def kept : Piece → List Char
  | group _ => [' ']
  | code text => text

end Piece

/-- No letter is a blank or a bracket, and the underscore is neither. -/
theorem plain_of_isAlpha {c : Char} (h : c.isAlpha = true ∨ c = '_') :
    isBlank c = false ∧ isBracket c = false := by
  rcases h with h | rfl
  · refine ⟨isBlank_of_isAlpha h, ?_⟩
    rw [← Bool.not_eq_true]
    intro hc
    simp only [isBracket, isOpening, isClosing, Bool.or_eq_true, beq_iff_eq] at hc
    rcases hc with ((rfl | rfl) | rfl) | ((rfl | rfl) | rfl) <;> exact absurd h (by decide)
  · decide

theorem IsGroupText.startsIdentifier {inner : List Char} (h : IsGroupText inner)
    (s : List Char) : startsIdentifier (trimStart (inner ++ s)) = true := by
  obtain ⟨b, c, t, rfl, hb, hc, -⟩ := h
  have hblank := (plain_of_isAlpha hc).1
  rw [List.append_assoc, trimStart_append_of_blank hb, List.cons_append, trimStart,
    List.dropWhile_cons_of_neg (by simp [hblank]), Declaration.startsIdentifier]
  simpa using hc

theorem IsGroupText.nested {inner : List Char} (h : IsGroupText inner) : Nested inner := by
  obtain ⟨b, c, t, rfl, hb, hc, ht⟩ := h
  have hblank : Nested b :=
    .of_plain fun d hd => (isSeparator_of_isBlank (isBlankText_iff.mp hb d hd)).1
  exact hblank.join (plain_of_isAlpha hc).2 ht

/-- **A group goes**, whatever stands behind it. -/
theorem IsGroupText.dropAttributeGroups_group {inner : List Char} (h : IsGroupText inner)
    (s : List Char) :
    dropAttributeGroups ('[' :: (inner ++ ']' :: s)) = ' ' :: dropAttributeGroups s := by
  have hcut := cutAtClose?_nested h.nested (c := ']') rfl s
  rw [dropAttributeGroups, if_pos ⟨rfl, h.startsIdentifier _⟩]
  split
  · next after hcut' =>
    rw [hcut] at hcut'
    obtain ⟨-, rfl⟩ := Prod.mk.inj (Option.some.inj hcut')
    rfl
  · next hnone => exact absurd (hnone.symm.trans hcut) (by simp)

namespace Piece

/-- A proper piece that opens a square bracket closes one, too. -/
theorem Proper.closes {x : Piece} (h : x.Proper) (hopen : '[' ∈ x.chars) : ']' ∈ x.chars := by
  cases x with
  | group inner => simp [chars]
  | code text =>
    obtain ⟨a, b, rfl⟩ := List.append_of_mem hopen
    obtain ⟨r, z, rfl, -⟩ := h a b rfl
    simp [chars]

/-- **Groups go and code stays.** -/
theorem dropAttributeGroups_chars {pieces : List Piece} (h : ∀ x ∈ pieces, x.Proper) :
    dropAttributeGroups (pieces.flatMap chars) = pieces.flatMap kept := by
  induction pieces with
  | nil => rw [List.flatMap_nil, List.flatMap_nil, dropAttributeGroups]
  | cons x pieces ih =>
    obtain ⟨hx, hpieces⟩ := List.forall_mem_cons.mp h
    rw [List.flatMap_cons, List.flatMap_cons, ← ih hpieces]
    cases x with
    | group inner =>
      rw [chars, List.cons_append, List.append_assoc, List.singleton_append,
        IsGroupText.dropAttributeGroups_group hx, kept, List.singleton_append]
    | code text => exact RanksOnly.dropAttributeGroups_append hx _

/-- The words of what stays are the words of the code. -/
theorem words_kept {pieces : List Piece} (h : pieces.IsChain Apart) :
    words (pieces.flatMap kept) = (pieces.filterMap code?).flatMap words := by
  induction pieces with
  | nil => rfl
  | cons x pieces ih =>
    have ih := ih h.tail
    cases x with
    | group inner =>
      rw [List.flatMap_cons, kept, List.singleton_append, words_cons_blank (by decide), ih]
      rfl
    | code text =>
      have hcode : (code text :: pieces).filterMap code? = text :: pieces.filterMap code? := rfl
      rw [hcode, List.flatMap_cons, List.flatMap_cons, ← ih, kept]
      cases pieces with
      | nil => rw [List.flatMap_nil, List.append_nil, show words [] = [] from rfl, List.append_nil]
      | cons y pieces =>
        -- code is followed by a group, which leaves a space
        cases y with
        | group inner =>
          rw [List.flatMap_cons, kept, List.singleton_append, words_append_cons _ _ (by decide),
            words_cons_blank (by decide)]
        | code other =>
          have hapart := (List.isChain_cons_cons.mp h).1
          simp [Apart, code?] at hapart

end Piece

theorem words_intercalate (texts : List (List Char)) :
    words (List.intercalate [' '] texts) = texts.flatMap words := by
  induction texts with
  | nil => rfl
  | cons s texts ih =>
    cases texts with
    | nil => rw [List.intercalate_singleton, List.flatMap_singleton]
    | cons t texts =>
      rw [List.intercalate_cons_cons, List.append_assoc, List.singleton_append,
        words_append_cons _ _ (by decide), ih, ← List.flatMap_cons]

/-- **Cleaning takes exactly the attribute groups** and keeps array ranks. A text without
slashes is put together of groups and of code, where no two pieces of code meet; what is
left of it is the code. -/
theorem clean_pieces {pieces : List Piece} (hproper : ∀ x ∈ pieces, x.Proper)
    (hslash : ∀ x ∈ pieces, '/' ∉ x.chars) (hapart : pieces.IsChain Piece.Apart) :
    clean (pieces.flatMap Piece.chars)
      = Text.normalize (List.intercalate [' '] (pieces.filterMap Piece.code?)) := by
  have hnone : '/' ∉ pieces.flatMap Piece.chars := by
    rw [List.mem_flatMap]
    rintro ⟨x, hx, hmem⟩
    exact hslash x hx hmem
  -- without a closing bracket there is no group, and the pass for groups is left out
  have hgroups : ']' ∉ pieces.flatMap Piece.chars →
      pieces.flatMap Piece.chars = dropAttributeGroups (pieces.flatMap Piece.chars) := by
    intro hclose
    refine (dropAttributeGroups_of_notMem fun hopen => hclose ?_).symm
    obtain ⟨x, hx, hmem⟩ := List.mem_flatMap.mp hopen
    exact List.mem_flatMap.mpr ⟨x, hx, (hproper x hx).closes hmem⟩
  have hclean : clean (pieces.flatMap Piece.chars)
      = Text.normalize (dropAttributeGroups (pieces.flatMap Piece.chars)) := by
    unfold clean
    dsimp only
    rw [dropLineComments_eq hnone, dropBlockComments_eq hnone]
    split
    · rfl
    · next hclose => rw [← hgroups (by simpa using hclose)]
  rw [hclean, Piece.dropAttributeGroups_chars hproper, Text.normalize, Piece.words_kept hapart,
    ← words_intercalate, Text.normalize]

/-- Attributes with an array rank, with arguments and with none, and code with ranks of one
and of two dimensions. -/
def theoryPieces : List Piece :=
  [.group "Theory".toList, .code "\n".toList, .group " InlineData(new[] { 1 })".toList,
    .group "_Skip".toList, .code "\npublic Map<int[], string[ ,\t]> ".toList]

/-- Two of the three groups stand side by side, and the ranks stay. -/
theorem clean_pieces_theory :
    (∀ x ∈ theoryPieces, x.Proper) ∧ (∀ x ∈ theoryPieces, '/' ∉ x.chars)
      ∧ theoryPieces.IsChain Piece.Apart
      ∧ clean (theoryPieces.flatMap Piece.chars)
        = "public Map<int[], string[ , ]>".toList := by
  have hproper : ∀ x ∈ theoryPieces, x.Proper := by
    intro x hx
    simp only [theoryPieces, List.mem_cons, List.not_mem_nil, or_false] at hx
    rcases hx with rfl | rfl | rfl | rfl | rfl
    · exact ⟨[], 'T', "heory".toList, rfl, rfl, .inl rfl, by decide⟩
    · exact (by decide : RanksOnly "\n".toList)
    · exact ⟨[' '], 'I', "nlineData(new[] { 1 })".toList, rfl, rfl, .inl rfl, by decide⟩
    · exact ⟨[], '_', "Skip".toList, rfl, rfl, .inr rfl, by decide⟩
    · exact (by decide : RanksOnly "\npublic Map<int[], string[ ,\t]> ".toList)
  have hslash : ∀ x ∈ theoryPieces, '/' ∉ x.chars := by decide
  have hapart : theoryPieces.IsChain Piece.Apart := by
    simp [theoryPieces, Piece.Apart, Piece.code?]
  exact ⟨hproper, hslash, hapart, (clean_pieces hproper hslash hapart).trans (by decide +kernel)⟩

end TestScaffold.Declaration
