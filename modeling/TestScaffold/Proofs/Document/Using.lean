import Mathlib.Data.List.Forall2
import Mathlib.Order.Bounds.Basic
import TestScaffold.Document.Using
import TestScaffold.Proofs.Text.Spacing
/-!
# The block of using directives

The usings of a document are read line by line, until a line is neither blank nor a directive. Two
things make up what is read: which lines are directives, and where the reading ends.

A directive is written in one way (`Source.IsDirective`): the word `using`, a gap, a namespace of a
few kinds of characters, and a semicolon. As nothing else may stand in the line, an alias, a static
or a global using and a directive with a comment behind it are none. Case does not count, and to
simple case folding two letters beyond ASCII are spellings of ASCII letters (`Text.IsSpelling`).

The lines that are read are the longest block at the top of the document in which every line is
blank or a directive (`Source.exists_longest_block`), so that a larger limit only adds to them.
-/

namespace TestScaffold

namespace Text

/-! ## Letters in any case -/

/-- The code of a lower-cased letter. -/
theorem toNat_toLower (c : Char) :
    c.toLower.toNat = if 65 ≤ c.toNat ∧ c.toNat ≤ 90 then c.toNat + 32 else c.toNat := by
  have hupper : (c.val ≥ 'A'.val ∧ c.val ≤ 'Z'.val) ↔ 65 ≤ c.toNat ∧ c.toNat ≤ 90 := by
    rw [ge_iff_le, UInt32.le_iff_toNat_le, UInt32.le_iff_toNat_le]
    rfl
  unfold Char.toLower
  split
  · next h =>
    have hle : c.val.toNat ≤ 90 := (hupper.mp h).2
    have hadd : ('a'.val - 'A'.val).toNat = 32 := rfl
    rw [if_pos (hupper.mp h)]
    show (c.val + ('a'.val - 'A'.val)).toNat = c.val.toNat + 32
    rw [UInt32.toNat_add, hadd, Nat.mod_eq_of_lt (by omega)]
  · next h => rw [if_neg (mt hupper.mpr h)]

/-- The code of an upper-cased letter. -/
theorem toNat_toUpper {c : Char} (h : 97 ≤ c.toNat ∧ c.toNat ≤ 122) :
    c.toUpper.toNat + 32 = c.toNat := by
  have hlower : 'a'.val ≤ c.val ∧ c.val ≤ 'z'.val := by
    rw [UInt32.le_iff_toNat_le, UInt32.le_iff_toNat_le]
    exact h
  have hle : c.val.toNat = c.toNat := rfl
  have hadd : ('A'.val - 'a'.val).toNat = 4294967264 := rfl
  unfold Char.toUpper
  rw [dif_pos hlower]
  show (c.val + ('A'.val - 'a'.val)).toNat + 32 = c.toNat
  rw [UInt32.toNat_add, hadd, hle]
  omega

/-- The lower-case letters of ASCII. -/
def IsLetter (letter : Char) : Prop :=
  97 ≤ letter.toNat ∧ letter.toNat ≤ 122

/-- **The spellings of a letter** when case does not count: the lower-case letter, the upper-case
one, and the two letters beyond ASCII that simple folding takes along, the long s and the Kelvin
sign. -/
def IsSpelling (letter c : Char) : Prop :=
  c = letter ∨ c = letter.toUpper ∨ (letter = 's' ∧ c = '\u017f') ∨ (letter = 'k' ∧ c = '\u212a')

/-- **Folding takes the spellings of a letter to the letter**, and nothing else. -/
theorem foldCase_eq_iff {letter c : Char} (h : IsLetter letter) :
    foldCase c = letter ↔ IsSpelling letter c := by
  have hupper := toNat_toUpper h
  obtain ⟨hlow, hhigh⟩ := h
  simp only [IsSpelling, ← Char.toNat_inj, foldCase, apply_ite Char.toNat, toNat_toLower]
  have hs : 's'.toNat = 115 := rfl
  have hk : 'k'.toNat = 107 := rfl
  have hlong : '\u017f'.toNat = 383 := rfl
  have hkelvin : '\u212a'.toNat = 8490 := rfl
  rw [hs, hk, hlong, hkelvin]
  split_ifs <;> omega

/-- A word read without regard to case is spelled letter by letter. -/
theorem map_foldCase_eq_iff {letters word : List Char} (h : ∀ l ∈ letters, IsLetter l) :
    word.map foldCase = letters ↔ List.Forall₂ IsSpelling letters word := by
  induction letters generalizing word with
  | nil => rw [List.map_eq_nil_iff, List.forall₂_nil_left_iff]
  | cons letter letters ih =>
    obtain ⟨hletter, hletters⟩ := List.forall_mem_cons.mp h
    cases word with
    | nil => simp
    | cons c word =>
      rw [List.map_cons, List.cons.injEq, foldCase_eq_iff hletter, ih hletters,
        List.forall₂_cons]

end Text

namespace Source

open Text

/-! ## Directives -/

/-- The characters of a namespace in a directive: letters in any case, digits, underscores and full
stops. -/
def IsNamespaceChar (c : Char) : Prop :=
  (∃ letter, IsLetter letter ∧ IsSpelling letter c) ∨ (48 ≤ c.toNat ∧ c.toNat ≤ 57)
    ∨ c = '_' ∨ c = '.'

/-- **A line directs to a namespace**: it is the word `using` in any case, a gap, the namespace,
perhaps a gap, and a semicolon. -/
def IsDirective (line name : List Char) : Prop :=
  ∃ word gap gap', line = word ++ (gap ++ (name ++ (gap' ++ [';'])))
    ∧ List.Forall₂ IsSpelling "using".toList word
    ∧ gap ≠ [] ∧ isBlankText gap = true ∧ isBlankText gap' = true
    ∧ name ≠ [] ∧ ∀ c ∈ name, IsNamespaceChar c

theorem isNamespaceChar_iff {c : Char} : isNamespaceChar c = true ↔ IsNamespaceChar c := by
  have hletter : (∃ letter, IsLetter letter ∧ IsSpelling letter c)
      ↔ 'a' ≤ foldCase c ∧ foldCase c ≤ 'z' := by
    constructor
    · rintro ⟨letter, hl, hc⟩
      rw [(foldCase_eq_iff hl).mpr hc]
      exact hl
    · intro h
      exact ⟨foldCase c, h, (foldCase_eq_iff h).mp rfl⟩
  have hdigit : c.isDigit = true ↔ 48 ≤ c.toNat ∧ c.toNat ≤ 57 := by
    simp [Char.isDigit, UInt32.le_iff_toNat_le]
  rw [isNamespaceChar, IsNamespaceChar, hletter, ← hdigit]
  simp [or_assoc]

/-- No character of a namespace is blank. -/
theorem isBlank_of_isNamespaceChar {c : Char} (h : isNamespaceChar c = true) :
    isBlank c = false := by
  have hcode : (48 ≤ c.toNat ∧ c.toNat ≤ 57) ∨ (65 ≤ c.toNat ∧ c.toNat ≤ 90)
      ∨ (97 ≤ c.toNat ∧ c.toNat ≤ 122) ∨ c.toNat = 383 ∨ c.toNat = 8490 ∨ c.toNat = 95
      ∨ c.toNat = 46 := by
    rcases isNamespaceChar_iff.mp h with ⟨letter, hl, hc⟩ | hdigit | rfl | rfl
    · have hupper := toNat_toUpper hl
      obtain ⟨hlow, hhigh⟩ := hl
      rcases hc with rfl | rfl | ⟨rfl, rfl⟩ | ⟨rfl, rfl⟩
      · omega
      · omega
      · decide
      · decide
    · omega
    · decide
    · decide
  rw [← Bool.not_eq_true]
  intro hblank
  simp only [isBlank, Bool.or_eq_true, Bool.and_eq_true, decide_eq_true_eq, beq_iff_eq] at hblank
  omega

theorem isLetter_using : ∀ l ∈ "using".toList, IsLetter l := by
  unfold IsLetter
  decide

/-- Behind a namespace stands what ends it: a blank or the semicolon. -/
theorem takeWhile_isNamespaceChar {name gap : List Char} (hname : ∀ c ∈ name, IsNamespaceChar c)
    (hgap : isBlankText gap = true) :
    (name ++ (gap ++ [';'])).takeWhile isNamespaceChar = name := by
  have hstop : (gap ++ [';']).takeWhile isNamespaceChar = [] := by
    cases gap with
    | nil => rfl
    | cons c gap =>
      refine List.takeWhile_cons_of_neg fun hc => ?_
      rw [isBlankText_cons, isBlank_of_isNamespaceChar hc] at hgap
      exact Bool.noConfusion hgap
  rw [List.takeWhile_append_of_pos fun c hc => isNamespaceChar_iff.mpr (hname c hc), hstop,
    List.append_nil]

/-- **A directive is recognised exactly**, and its namespace is what stands between the gaps. -/
theorem directive?_eq_some_iff {line name : List Char} :
    directive? line = some name ↔ IsDirective line name := by
  constructor
  · intro h
    rw [directive?] at h
    split at h
    · next hread =>
      obtain rfl := Option.some.inj h
      simp only [Bool.and_eq_true, beq_iff_eq, decide_eq_true_eq] at hread
      obtain ⟨⟨⟨hword, hshort⟩, hname⟩, hend⟩ := hread
      have hbehind := List.prefix_iff_eq_append.mp
        (List.takeWhile_prefix isNamespaceChar (l := trimStart (line.drop 5)))
      obtain ⟨gap, hgap, hrest⟩ := exists_eq_append_trimStart (line.drop 5)
      obtain ⟨gap', hgap', htail⟩ := exists_eq_append_trimStart ((trimStart (line.drop 5)).drop
        ((trimStart (line.drop 5)).takeWhile isNamespaceChar).length)
      rw [hend] at htail
      refine ⟨line.take 5, gap, gap', ?_, (map_foldCase_eq_iff isLetter_using).mp hword, ?_,
        hgap, hgap', by simpa using hname,
        fun c hc => isNamespaceChar_iff.mp (List.mem_takeWhile_imp hc)⟩
      · rw [← htail, hbehind, ← hrest, List.take_append_drop]
      · rintro rfl
        rw [List.nil_append] at hrest
        exact absurd hshort (by rw [← hrest]; exact Nat.lt_irrefl _)
    · exact absurd h (by simp)
  · rintro ⟨word, gap, gap', rfl, hword, hne, hgap, hgap', hname, hchars⟩
    have hlen : word.length = 5 := hword.length_eq.symm
    have htake := takeWhile_isNamespaceChar hchars hgap'
    have hstart : trimStart (name ++ (gap' ++ [';'])) = name ++ (gap' ++ [';']) := by
      refine trimStart_eq_self_iff.mpr fun c hc => ?_
      rw [List.head?_append_of_ne_nil _ hname] at hc
      exact isBlank_of_isNamespaceChar
        (isNamespaceChar_iff.mpr (hchars c (List.mem_of_mem_head? hc)))
    have hend : trimStart (gap' ++ [';']) = [';'] := trimStart_append_of_blank hgap'
    have hpos := List.length_pos_iff.mpr hne
    rw [directive?, List.take_left' hlen, List.drop_left' hlen, trimStart_append_of_blank hgap,
      hstart, htake, List.drop_left, hend, (map_foldCase_eq_iff isLetter_using).mpr hword]
    simp [hname, hpos]

/-! ## The block of directives -/

/-- **A block of directives**: lines each of which is blank or a directive, once it is trimmed,
with the namespaces of the directives in order. -/
inductive Block : List (List Char) → List (List Char) → Prop
  | nil : Block [] []
  | blank {line : List Char} {lines names : List (List Char)} (hline : isBlankText line = true)
      (h : Block lines names) : Block (line :: lines) names
  | directive {line name : List Char} {lines names : List (List Char)}
      (hline : IsDirective (trim line) name) (h : Block lines names) :
      Block (line :: lines) (name :: names)

theorem isEmpty_trim_iff {s : List Char} : (trim s).isEmpty = true ↔ isBlankText s = true := by
  rw [List.isEmpty_iff]
  refine ⟨fun h => ?_, trim_of_blank⟩
  obtain ⟨a, b, ha, hb, hs⟩ := exists_eq_append_trim s
  rw [hs, h, isBlankText_append, isBlankText_append, ha, hb]
  rfl

/-- The first line of a block is blank or a directive. -/
theorem Block.of_cons {line : List Char} {lines names : List (List Char)}
    (h : Block (line :: lines) names) :
    isBlankText line = true ∨ ∃ name, directive? (trim line) = some name := by
  cases h with
  | blank hline _ => exact .inl hline
  | directive hline _ => exact .inr ⟨_, directive?_eq_some_iff.mpr hline⟩

/-- **The namespaces are those of the longest block** that begins the lines. -/
theorem exists_longest_block (lines : List (List Char)) :
    ∃ k ≤ lines.length, Block (lines.take k) (leadingUsings lines)
      ∧ ∀ k' ≤ lines.length, (∃ names, Block (lines.take k') names) → k' ≤ k := by
  induction lines with
  | nil => exact ⟨0, Nat.le_refl 0, .nil, fun k' hk' _ => hk'⟩
  | cons line lines ih =>
    obtain ⟨k, hk, hblock, hlongest⟩ := ih
    rw [leadingUsings]
    -- a block that holds the first line is one of the other lines behind it
    have hmore : ∀ k' ≤ (line :: lines).length,
        (∃ names, Block ((line :: lines).take k') names) → k' ≤ k + 1 := by
      rintro (_ | k') hk' ⟨names, h⟩
      · exact Nat.zero_le _
      · refine Nat.succ_le_succ (hlongest k' (Nat.le_of_succ_le_succ hk') ?_)
        cases h with
        | blank _ h => exact ⟨_, h⟩
        | directive _ h => exact ⟨_, h⟩
    split
    · next hempty =>
      exact ⟨k + 1, Nat.succ_le_succ hk, .blank (isEmpty_trim_iff.mp hempty) hblock, hmore⟩
    · next hfilled =>
      split
      · next name hname =>
        exact ⟨k + 1, Nat.succ_le_succ hk, .directive (directive?_eq_some_iff.mp hname) hblock,
          hmore⟩
      · next hother =>
        refine ⟨0, Nat.zero_le _, .nil, ?_⟩
        rintro (_ | k') _ ⟨names, h⟩
        · exact Nat.le_refl 0
        · rcases h.of_cons with hblank | ⟨name, hname⟩
          · exact absurd (isEmpty_trim_iff.mpr hblank) hfilled
          · exact absurd (hother.symm.trans hname) (by simp)

/-- More lines give more namespaces behind the same ones. -/
theorem leadingUsings_prefix_append (lines more : List (List Char)) :
    leadingUsings lines <+: leadingUsings (lines ++ more) := by
  induction lines with
  | nil => exact List.nil_prefix
  | cons line lines ih =>
    rw [List.cons_append, leadingUsings, leadingUsings]
    split
    · exact ih
    · split
      · exact List.cons_prefix_cons.mpr ⟨rfl, ih⟩
      · exact List.nil_prefix

/-- **The usings of a document are its leading block of directives**, as far as the limit: the
namespaces are those of the longest block of lines at the top, in their order. A line is a
directive exactly when it is written as one, and a larger limit only adds namespaces. -/
theorem usings_of_longest_block (s : Source) :
    (∀ limit, ∃ k names, s.usings limit = names.map String.ofList
      ∧ Block (s.lines.take k) names
      ∧ IsGreatest {k | k ≤ min limit s.lineCount ∧ ∃ names, Block (s.lines.take k) names} k)
    ∧ (∀ line name, directive? line = some name ↔ IsDirective line name)
    ∧ ∀ m n, m ≤ n → s.usings m <+: s.usings n := by
  refine ⟨fun limit => ?_, fun line name => directive?_eq_some_iff, fun m n hmn => ?_⟩
  · obtain ⟨k, hk, hblock, hlongest⟩ := exists_longest_block (s.lines.take limit)
    have hlen : (s.lines.take limit).length = min limit s.lineCount := by
      rw [List.length_take, lines, List.length_map, lineCount]
    -- within the limit, blocks of the document are blocks of the lines up to the limit
    have htake : ∀ k' ≤ min limit s.lineCount, (s.lines.take limit).take k' = s.lines.take k' :=
      fun k' hk' => by rw [List.take_take, Nat.min_eq_left (hk'.trans (Nat.min_le_left _ _))]
    rw [hlen] at hk hlongest
    rw [htake k hk] at hblock
    refine ⟨k, _, rfl, hblock, ⟨hk, _, hblock⟩, ?_⟩
    rintro k' ⟨hk', hblock'⟩
    exact hlongest k' hk' (by rwa [htake k' hk'])
  · obtain ⟨more, hmore⟩ := List.take_prefix_take_left (l := s.lines) hmn
    rw [usings, usings, ← hmore]
    exact (leadingUsings_prefix_append _ more).map String.ofList

/-- A directive in capitals and one with a long s, a blank line between them, and a static using
that ends the block. -/
theorem usings_of_longest_block_mixed :
    let s : Source :=
      ⟨"USING\tSystem ;\r\n \r\nu\u017fing Demo.Core;\nusing static A;\nusing B;".toList⟩
    1 ≤ 9 ∧ s.usings 1 = ["System"] ∧ s.usings 9 = ["System", "Demo.Core"]
      ∧ s.usings 1 <+: s.usings 9 := by
  intro s
  exact ⟨by decide, by decide, by decide, (usings_of_longest_block s).2.2 1 9 (by decide)⟩

end Source

end TestScaffold
