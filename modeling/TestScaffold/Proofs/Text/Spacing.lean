import Mathlib.Data.List.DropRight
import TestScaffold.Text.Blank
/-!
# Trimmed and tidy texts

The readers of this library trim every piece they cut out and normalise the
white space of every declaration. A round trip through them therefore asks two
things of a printed text: that trimming returns it unchanged, and that
normalising does.

A text is trimmed when neither its first nor its last character is blank
(`trim_eq_self_iff`). It is **tidy** when, besides, its only blanks are single
spaces: `tidy_iff_normalize_eq` says that the tidy texts are exactly those that
normalising leaves alone. Tidiness is kept by putting texts side by side, with
or without a space between them, which is how declarations are written.

Neither of the two touches anything but blanks: the `ink` of a text, which is all of
it that is not blank, stays (`ink_trim`, `ink_normalize`).
-/

namespace TestScaffold.Text

/-- A property of the characters of a text is decided on these characters. The
instance stands in front of the one that goes through every character there is. -/
instance decidableForallMem (p : Char → Prop) [DecidablePred p] (s : List Char) :
    Decidable (∀ c ∈ s, p c) :=
  List.decidableBAll p s

/-! ## Blank texts -/

@[simp] theorem isBlankText_nil : isBlankText [] = true := rfl

@[simp] theorem isBlankText_cons (c : Char) (s : List Char) :
    isBlankText (c :: s) = (isBlank c && isBlankText s) := rfl

@[simp] theorem isBlankText_append (a b : List Char) :
    isBlankText (a ++ b) = (isBlankText a && isBlankText b) :=
  List.all_append

theorem isBlankText_iff {s : List Char} :
    isBlankText s = true ↔ ∀ c ∈ s, isBlank c = true :=
  List.all_eq_true

/-! ## Trimming one end -/

/-- Dropping from the right what satisfies `p`, as long as nothing that stays stands behind it. -/
theorem foldr_drop_eq_rdropWhile {α : Type} (p : α → Bool) (s : List α) :
    s.foldr (fun a rest => if rest.isEmpty && p a then [] else a :: rest) []
      = s.rdropWhile p := by
  induction s with
  | nil => rfl
  | cons a s ih =>
    rw [List.foldr_cons, ih]
    unfold List.rdropWhile
    rw [List.reverse_cons, List.dropWhile_append]
    by_cases hs : List.dropWhile p s.reverse = []
    · by_cases ha : p a = true <;> simp [hs, ha]
    · simp [hs]

/-- Trimming the end drops the blanks from the right. -/
theorem trimEnd_eq_rdropWhile (s : List Char) : trimEnd s = s.rdropWhile isBlank :=
  foldr_drop_eq_rdropWhile isBlank s

theorem trimEnd_eq_nil_iff {s : List Char} : trimEnd s = [] ↔ isBlankText s = true := by
  rw [trimEnd_eq_rdropWhile, List.rdropWhile_eq_nil_iff, isBlankText_iff]

theorem trimStart_eq_nil_iff {s : List Char} :
    trimStart s = [] ↔ isBlankText s = true := by
  rw [trimStart, List.dropWhile_eq_nil_iff, isBlankText_iff]

/-- The end of a text is trimmed inside its last part that is not blank. -/
theorem trimEnd_append (a b : List Char) :
    trimEnd (a ++ b) = if trimEnd b = [] then trimEnd a else a ++ trimEnd b := by
  induction a with
  | nil => split <;> simp_all
  | cons c a ih =>
    rw [List.cons_append, trimEnd_cons, ih]
    by_cases hb : trimEnd b = []
    · rw [if_pos hb, if_pos hb, trimEnd_cons]
    · rw [if_neg hb, if_neg hb, if_neg (by simp [hb]), List.cons_append]

theorem trimEnd_append_of_blank {a b : List Char} (hb : isBlankText b = true) :
    trimEnd (a ++ b) = trimEnd a := by
  rw [trimEnd_append, if_pos (trimEnd_eq_nil_iff.mpr hb)]

theorem trimStart_append_of_blank {a b : List Char} (ha : isBlankText a = true) :
    trimStart (a ++ b) = trimStart b :=
  List.dropWhile_append_of_pos (isBlankText_iff.mp ha)

theorem trimStart_eq_self_iff {s : List Char} :
    trimStart s = s ↔ ∀ c ∈ s.head?, isBlank c = false := by
  cases s with
  | nil => simp
  | cons c s =>
    by_cases hc : isBlank c = true
    · have hlen := length_trimStart_le s
      have hne : trimStart (c :: s) ≠ c :: s := by
        intro h
        rw [trimStart, List.dropWhile_cons_of_pos hc] at h
        have := congrArg List.length h
        rw [List.length_cons] at this
        unfold trimStart at hlen
        omega
      simp [hne, hc]
    · simp [trimStart, hc]

theorem trimEnd_eq_self_iff {s : List Char} :
    trimEnd s = s ↔ ∀ c ∈ s.getLast?, isBlank c = false := by
  rw [trimEnd_eq_rdropWhile, List.rdropWhile_eq_self_iff]
  constructor
  · intro h c hc
    obtain ⟨hne, rfl⟩ := List.mem_getLast?_eq_getLast hc
    exact Bool.eq_false_iff.mpr (h hne)
  · intro h hne
    rw [h _ (List.getLast_mem_getLast? hne)]
    exact Bool.false_ne_true

/-! ## Trimming -/

/-- Blanks at both ends do not matter to trimming. -/
theorem trim_blank_append {a b : List Char} (ha : isBlankText a = true) :
    trim (a ++ b) = trim b := by
  rw [trim, trimStart_append_of_blank ha, trim]

theorem trim_append_blank {a b : List Char} (hb : isBlankText b = true) :
    trim (a ++ b) = trim a := by
  unfold trim
  by_cases ha : isBlankText a = true
  · rw [trimStart_append_of_blank ha, trimStart_eq_nil_iff.mpr hb,
      trimStart_eq_nil_iff.mpr ha]
  · have hne : trimStart a ≠ [] := fun h => ha (trimStart_eq_nil_iff.mp h)
    have hstart : trimStart (a ++ b) = trimStart a ++ b := by
      rw [trimStart, List.dropWhile_append, if_neg]
      · rfl
      · rw [List.isEmpty_iff]
        exact hne
    rw [hstart, trimEnd_append_of_blank hb]

/-- Only blanks are trimmed from the start. -/
theorem exists_eq_append_trimStart (s : List Char) :
    ∃ a, isBlankText a = true ∧ s = a ++ trimStart s :=
  ⟨s.takeWhile isBlank, isBlankText_iff.mpr fun _ => List.mem_takeWhile_imp,
    List.takeWhile_append_dropWhile.symm⟩

/-- Only blanks are trimmed from the end. -/
theorem exists_eq_trimEnd_append (s : List Char) :
    ∃ b, isBlankText b = true ∧ s = trimEnd s ++ b := by
  refine ⟨s.rtakeWhile isBlank, isBlankText_iff.mpr fun _ => List.mem_rtakeWhile_imp, ?_⟩
  rw [trimEnd_eq_rdropWhile, List.rdropWhile_append_rtakeWhile]

/-- Blanks trimmed from the end first change nothing. -/
theorem trim_trimEnd (s : List Char) : trim (trimEnd s) = trim s := by
  obtain ⟨b, hb, hs⟩ := exists_eq_trimEnd_append s
  conv_rhs => rw [hs]
  exact (trim_append_blank hb).symm

theorem trim_of_blank {s : List Char} (h : isBlankText s = true) : trim s = [] := by
  rw [trim, trimStart_eq_nil_iff.mpr h, trimEnd_nil]

/-- Trimming leaves neither end blank. -/
theorem head?_trim (s : List Char) : ∀ c ∈ (trim s).head?, isBlank c = false := by
  intro c hc
  have hpre : trim s <+: trimStart s := by
    rw [trim, trimEnd_eq_rdropWhile]
    exact List.rdropWhile_prefix isBlank _
  obtain ⟨tail, htail⟩ := hpre
  have hc' : c ∈ (trimStart s).head? := by
    rw [← htail, List.head?_append, Option.mem_def.mp hc]
    rfl
  exact trimStart_eq_self_iff.mp (List.dropWhile_idempotent isBlank s) c hc'

theorem getLast?_trim (s : List Char) : ∀ c ∈ (trim s).getLast?, isBlank c = false := by
  rw [← trimEnd_eq_self_iff, trim]
  simp only [trimEnd_eq_rdropWhile]
  exact List.rdropWhile_idempotent isBlank _

/-- **A text is trimmed when neither end is blank.** -/
theorem trim_eq_self_iff {s : List Char} :
    trim s = s ↔ (∀ c ∈ s.head?, isBlank c = false)
      ∧ (∀ c ∈ s.getLast?, isBlank c = false) := by
  constructor
  · intro h
    exact ⟨h ▸ head?_trim s, h ▸ getLast?_trim s⟩
  · rintro ⟨hhead, hlast⟩
    rw [trim, trimStart_eq_self_iff.mpr hhead, trimEnd_eq_self_iff.mpr hlast]

@[simp] theorem trim_trim (s : List Char) : trim (trim s) = trim s :=
  trim_eq_self_iff.mpr ⟨head?_trim s, getLast?_trim s⟩

/-- Blanks around a trimmed text are trimmed away. -/
theorem trim_surround {a s b : List Char} (ha : isBlankText a = true)
    (hs : trim s = s) (hb : isBlankText b = true) : trim (a ++ (s ++ b)) = s := by
  rw [trim_blank_append ha, trim_append_blank hb, hs]

/-- A text without blanks is trimmed. -/
theorem trim_eq_self_of_solid {s : List Char} (h : ∀ c ∈ s, isBlank c = false) :
    trim s = s :=
  trim_eq_self_iff.mpr ⟨fun c hc => h c (List.mem_of_mem_head? hc),
    fun c hc => h c (List.mem_of_mem_getLast? hc)⟩

/-- Behind a trimmed text only the end is trimmed. -/
theorem trim_append_of_trim {a : List Char} (hne : a ≠ []) (ha : trim a = a) (b : List Char) :
    trim (a ++ b) = a ++ trimEnd b := by
  obtain ⟨hhead, hlast⟩ := trim_eq_self_iff.mp ha
  have hstart : trimStart (a ++ b) = a ++ b :=
    trimStart_eq_self_iff.mpr (List.head?_append_of_ne_nil _ hne ▸ hhead)
  rw [trim, hstart, trimEnd_append]
  split
  · next hb => rw [hb, List.append_nil, trimEnd_eq_self_iff.mpr hlast]
  · rfl

/-- Whatever stands between two trimmed texts, the whole is trimmed. -/
theorem trim_eq_self_append {a b x : List Char} (ha : trim a = a) (hb : trim b = b)
    (hna : a ≠ []) (hnb : b ≠ []) : trim (a ++ (x ++ b)) = a ++ (x ++ b) := by
  rw [trim_eq_self_iff] at ha hb ⊢
  refine ⟨fun c hc => ha.1 c ?_, fun c hc => hb.2 c ?_⟩
  · rwa [List.head?_append_of_ne_nil _ hna] at hc
  · rwa [← List.append_assoc, List.getLast?_append_of_ne_nil _ hnb] at hc

/-- Trimming takes blanks away and nothing else. -/
theorem exists_eq_append_trim (s : List Char) :
    ∃ a b, isBlankText a = true ∧ isBlankText b = true ∧ s = a ++ (trim s ++ b) := by
  obtain ⟨a, ha, hstart⟩ := exists_eq_append_trimStart s
  obtain ⟨b, hb, hend⟩ := exists_eq_trimEnd_append (trimStart s)
  exact ⟨a, b, ha, hb, hstart.trans (congrArg (a ++ ·) hend)⟩

/-- **A text is trimmed inside its last part** when nothing blank begins it. -/
theorem trim_append_of_trimStart {a b : List Char} (hab : trimStart (a ++ b) = a ++ b)
    (hb : trimStart b = b) (hne : trim b ≠ []) : trim (a ++ b) = a ++ trim b := by
  unfold trim at hne ⊢
  rw [hb] at hne ⊢
  rw [hab, trimEnd_append, if_neg hne]

/-- **The last part of a trimmed text** is trimmed at its end, so trimming it takes no more than
the blanks it begins with. -/
theorem exists_eq_append_trim_of_trim {a b : List Char} (h : trim (a ++ b) = a ++ b) :
    ∃ blanks, isBlankText blanks = true ∧ b = blanks ++ trim b := by
  obtain ⟨blanks, hblanks, hb⟩ := exists_eq_append_trimStart b
  have hend : trimEnd (trimStart b) = trimStart b := by
    refine trimEnd_eq_self_iff.mpr fun c hc => (trim_eq_self_iff.mp h).2 c ?_
    rw [hb, ← List.append_assoc, List.getLast?_append, Option.mem_def.mp hc, Option.some_or]
    rfl
  exact ⟨blanks, hblanks, by rw [trim, hend]; exact hb⟩

/-! ## Splitting -/

/-- Cutting at every element satisfying `p` is the library's own splitting. -/
theorem splitWhere_eq_splitOnP {α : Type} (p : α → Bool) (l : List α) :
    splitWhere p l = l.splitOnP p := by
  induction l with
  | nil => rfl
  | cons a l ih => rw [splitWhere, List.splitOnP_cons_eq_if_modifyHead, ih]

theorem splitWhere_append_cons {α : Type} {p : α → Bool} (a b : List α) {x : α}
    (hx : p x = true) : splitWhere p (a ++ x :: b) = splitWhere p a ++ splitWhere p b := by
  simp only [splitWhere_eq_splitOnP]
  exact List.splitOnP_append_cons a b hx

theorem splitWhere_of_none {α : Type} {p : α → Bool} {l : List α}
    (h : ∀ a ∈ l, p a = false) : splitWhere p l = [l] := by
  rw [splitWhere_eq_splitOnP, List.splitOnP_eq_singleton h]

theorem splitWhere_ne_nil {α : Type} (p : α → Bool) (l : List α) :
    splitWhere p l ≠ [] := by
  rw [splitWhere_eq_splitOnP]
  exact List.splitOnP_ne_nil p l

/-- The pieces of a list hold its elements in order, but for those it was cut at. -/
theorem flatten_splitWhere {α : Type} (p : α → Bool) (l : List α) :
    (splitWhere p l).flatten = l.filter fun a => !p a := by
  induction l with
  | nil => rfl
  | cons a l ih =>
    obtain ⟨piece, pieces, hl⟩ := List.exists_cons_of_ne_nil (splitWhere_ne_nil p l)
    rw [splitWhere, List.filter_cons, ← ih]
    cases p a with
    | true => rfl
    | false =>
      rw [hl]
      rfl

theorem splitWhere_congr {α : Type} {p q : α → Bool} {l : List α}
    (h : ∀ a ∈ l, p a = q a) : splitWhere p l = splitWhere q l := by
  induction l with
  | nil => rfl
  | cons a l ih =>
    rw [splitWhere, splitWhere, h a List.mem_cons_self,
      ih fun b hb => h b (List.mem_cons_of_mem a hb)]

/-- A piece holds elements of the list, none of them one it was cut at. -/
theorem of_mem_splitWhere {α : Type} {p : α → Bool} :
    ∀ {l piece : List α}, piece ∈ splitWhere p l → ∀ a ∈ piece, a ∈ l ∧ p a = false
  | [], piece, h => by simp_all [splitWhere]
  | x :: l, piece, h => by
    rw [splitWhere] at h
    split at h
    · rcases List.mem_cons.mp h with rfl | h
      · simp
      · exact fun a ha =>
          (of_mem_splitWhere h a ha).imp_left (List.mem_cons_of_mem x)
    · next hx =>
      obtain ⟨w, ws, hw⟩ := List.exists_cons_of_ne_nil (splitWhere_ne_nil p l)
      rw [hw, List.modifyHead_cons] at h
      intro a ha
      rcases List.mem_cons.mp h with rfl | h
      · rcases List.mem_cons.mp ha with rfl | ha
        · exact ⟨List.mem_cons_self, by simpa using hx⟩
        · exact (of_mem_splitWhere (hw ▸ List.mem_cons_self) a ha).imp_left
            (List.mem_cons_of_mem x)
      · exact (of_mem_splitWhere (hw ▸ List.mem_cons_of_mem w h) a ha).imp_left
          (List.mem_cons_of_mem x)

/-! ## Joining -/

/-- **What joining two lists keeps, joining many keeps.** -/
theorem intercalate_of_join {α : Type} {P : List α → Prop} {sep : List α}
    {xs : List (List α)} (hne : xs ≠ []) (h : ∀ x ∈ xs, P x)
    (hjoin : ∀ a b, P a → P b → P (a ++ (sep ++ b))) : P (List.intercalate sep xs) := by
  induction xs with
  | nil => exact absurd rfl hne
  | cons x xs ih =>
    have hx := h x List.mem_cons_self
    cases xs with
    | nil => rwa [List.intercalate_singleton]
    | cons y ys =>
      rw [List.intercalate_cons_cons, List.append_assoc]
      exact hjoin _ _ hx (ih (by simp) fun z hz => h z (List.mem_cons_of_mem x hz))

/-- With a separator behind the last list, too, each list has one behind it. -/
theorem intercalate_append_sep {α : Type} {sep : List α} {xs : List (List α)} (hne : xs ≠ []) :
    List.intercalate sep xs ++ sep = xs.flatMap (· ++ sep) := by
  induction xs with
  | nil => exact absurd rfl hne
  | cons x xs ih =>
    cases xs with
    | nil => simp
    | cons y ys =>
      rw [List.intercalate_cons_cons, List.append_assoc, ih (by simp)]
      rfl

/-- The lists in front of others are each joined with a separator behind. -/
theorem intercalate_append {α : Type} {sep : List α} {xs ys : List (List α)}
    (hne : ys ≠ []) :
    List.intercalate sep (xs ++ ys) = xs.flatMap (· ++ sep) ++ List.intercalate sep ys := by
  induction xs with
  | nil => rfl
  | cons x xs ih =>
    rw [List.cons_append, List.intercalate_cons_of_ne_nil (by simp [hne]), ih,
      List.flatMap_cons]
    simp only [List.append_assoc]

/-! ## Tidy texts -/

/-- **A tidy text**: its only blanks are single spaces, each between two
characters that are not blank. -/
inductive Tidy : List Char → Prop
  | nil : Tidy []
  | solid {c : Char} {s : List Char} (hc : isBlank c = false) (hs : Tidy s) :
      Tidy (c :: s)
  | space {c : Char} {s : List Char} (hc : isBlank c = false) (hs : Tidy s)
      (hne : s ≠ []) : Tidy (c :: ' ' :: s)

namespace Tidy

/-- A text without blanks is tidy. -/
theorem of_solid {s : List Char} (h : ∀ c ∈ s, isBlank c = false) : Tidy s := by
  induction s with
  | nil => exact .nil
  | cons c s ih =>
    exact .solid (h c List.mem_cons_self) (ih fun d hd => h d (List.mem_cons_of_mem c hd))

/-- **Tidy texts may be put side by side.** -/
theorem append {a b : List Char} (ha : Tidy a) (hb : Tidy b) : Tidy (a ++ b) := by
  induction ha with
  | nil => exact hb
  | solid hc _ ih => exact .solid hc ih
  | space hc _ hne ih => exact .space hc ih (by simp [hne])

/-- **Tidy texts may be joined by a space.** -/
theorem join {a b : List Char} (ha : Tidy a) (hb : Tidy b) (hna : a ≠ [])
    (hnb : b ≠ []) : Tidy (a ++ ' ' :: b) := by
  induction ha with
  | nil => exact absurd rfl hna
  | @solid c s hc _ ih =>
    cases s with
    | nil => exact .space hc hb hnb
    | cons d s => exact .solid hc (ih (by simp))
  | space hc _ hne ih => exact .space hc (ih hne) (by simp)

/-- Tidy words joined by spaces are tidy. -/
theorem intercalate {ws : List (List Char)} (h : ∀ w ∈ ws, Tidy w ∧ w ≠ []) :
    Tidy (List.intercalate [' '] ws) := by
  by_cases hne : ws = []
  · subst hne
    exact .nil
  · refine (intercalate_of_join (P := fun a => Tidy a ∧ a ≠ []) hne h ?_).1
    rintro a b ⟨ha, hna⟩ ⟨hb, hnb⟩
    exact ⟨ha.join hb hna hnb, by simp⟩

/-- The blanks of a tidy text are spaces. -/
theorem eq_space {s : List Char} (h : Tidy s) :
    ∀ c ∈ s, isBlank c = true → c = ' ' := by
  induction h with
  | nil => simp
  | solid hc _ ih =>
    intro d hd hb
    rcases List.mem_cons.mp hd with rfl | hd
    · rw [hc] at hb
      exact absurd hb Bool.false_ne_true
    · exact ih d hd hb
  | space hc _ _ ih =>
    intro d hd hb
    rcases List.mem_cons.mp hd with rfl | hd
    · rw [hc] at hb
      exact absurd hb Bool.false_ne_true
    · rcases List.mem_cons.mp hd with rfl | hd
      · rfl
      · exact ih d hd hb

/-- Between the blanks of a tidy text there is always something. -/
theorem nil_notMem_splitWhere {s : List Char} (h : Tidy s) (hne : s ≠ []) :
    [] ∉ splitWhere isBlank s := by
  induction h with
  | nil => exact absurd rfl hne
  | @solid c s hc _ ih =>
    -- the character lengthens the first piece, which so holds something
    obtain ⟨w, ws, hw⟩ := List.exists_cons_of_ne_nil (splitWhere_ne_nil isBlank s)
    rw [splitWhere, if_neg (by simp [hc]), hw, List.modifyHead_cons]
    cases s with
    | nil =>
      have : w = [] ∧ ws = [] := by simpa [splitWhere, eq_comm] using hw
      simp [this]
    | cons d s =>
      have := ih (by simp)
      rw [hw] at this
      simp_all
  | @space c s hc _ hs ih =>
    rw [show c :: ' ' :: s = [c] ++ ' ' :: s from rfl,
      splitWhere_append_cons _ _ (by decide), splitWhere_of_none (by simpa using hc)]
    simpa using ih hs

/-- A tidy text is trimmed. -/
theorem trim_eq {s : List Char} (h : Tidy s) : trim s = s := by
  refine trim_eq_self_iff.mpr ⟨?_, ?_⟩
  · cases h with
    | nil => simp
    | solid hc _ => simpa using hc
    | space hc _ _ => simpa using hc
  · induction h with
    | nil => simp
    | @solid c s hc _ ih =>
      cases s with
      | nil => simpa using hc
      | cons d s => simpa using ih
    | @space c s hc _ hne ih =>
      cases s with
      | nil => exact absurd rfl hne
      | cons d s => simpa using ih

/-- The words of a tidy text are what stands between its spaces. -/
theorem words_eq {s : List Char} (h : Tidy s) (hne : s ≠ []) :
    words s = splitWhere (· == ' ') s := by
  have hwords : words s = splitWhere isBlank s := by
    refine List.filter_eq_self.mpr fun w hw => ?_
    have : w ≠ [] := fun hnil => h.nil_notMem_splitWhere hne (hnil ▸ hw)
    simpa using this
  rw [hwords]
  refine splitWhere_congr fun c hc => ?_
  by_cases hb : isBlank c = true
  · rw [h.eq_space c hc hb]
    decide
  · have : c ≠ ' ' := by
      rintro rfl
      exact hb (by decide)
    simp [hb, this]

/-- **Normalising leaves a tidy text alone.** -/
theorem normalize_eq {s : List Char} (h : Tidy s) : normalize s = s := by
  by_cases hne : s = []
  · subst hne
    rfl
  · rw [normalize, h.words_eq hne, splitWhere_eq_splitOnP, ← List.splitOn_eq_splitOnP,
      List.intercalate_splitOn]

end Tidy

/-- Normalising makes a text tidy. -/
theorem tidy_normalize (s : List Char) : Tidy (normalize s) := by
  refine Tidy.intercalate fun w hw => ?_
  obtain ⟨hmem, hne⟩ := List.mem_filter.mp hw
  exact ⟨.of_solid fun c hc => (of_mem_splitWhere hmem c hc).2, by simpa using hne⟩

/-- **The tidy texts are those that normalising leaves alone.** -/
theorem tidy_iff_normalize_eq {s : List Char} : Tidy s ↔ normalize s = s :=
  ⟨Tidy.normalize_eq, fun h => h ▸ tidy_normalize s⟩

/-- The words of a text stand on either side of its blanks. -/
theorem words_append_cons (a b : List Char) {c : Char} (hc : isBlank c = true) :
    words (a ++ c :: b) = words a ++ words b := by
  unfold words
  rw [splitWhere_append_cons a b hc, List.filter_append]

/-- A blank in front of a text belongs to no word. -/
theorem words_cons_blank {c : Char} (hc : isBlank c = true) (s : List Char) :
    words (c :: s) = words s :=
  words_append_cons [] s hc

theorem words_of_blank {b : List Char} (hb : isBlankText b = true) : words b = [] := by
  induction b with
  | nil => rfl
  | cons c b ih =>
    rw [isBlankText_cons, Bool.and_eq_true] at hb
    rw [words_cons_blank hb.1, ih hb.2]

/-- Blanks at the end of a text do not matter to normalising. -/
theorem normalize_append_blank (s : List Char) {b : List Char} (hb : isBlankText b = true) :
    normalize (s ++ b) = normalize s := by
  cases b with
  | nil => rw [List.append_nil]
  | cons c b =>
    rw [isBlankText_cons, Bool.and_eq_true] at hb
    rw [normalize, words_append_cons s b hb.1, words_of_blank hb.2, List.append_nil, normalize]

theorem normalize_append_space (s : List Char) : normalize (s ++ [' ']) = normalize s :=
  normalize_append_blank s rfl

/-- A blank in front of a text does not matter to normalising. -/
theorem normalize_cons_space (s : List Char) : normalize (' ' :: s) = normalize s := by
  rw [normalize, words_cons_blank (by decide), normalize]

/-- Two blanks are as good as one. -/
theorem normalize_append_blanks (a b : List Char) {c d : Char} (hc : isBlank c = true)
    (hd : isBlank d = true) : normalize (a ++ c :: d :: b) = normalize (a ++ d :: b) := by
  rw [normalize, words_append_cons a _ hc, words_cons_blank hd, ← words_append_cons a b hd,
    normalize]

/-- What is put behind a list and is not cut ends its last piece. -/
theorem splitWhere_append_of_none {α : Type} {p : α → Bool} (a : List α) {b : List α}
    (hb : ∀ x ∈ b, p x = false) :
    ∃ pieces piece, splitWhere p (a ++ b) = pieces ++ [piece ++ b] := by
  induction a with
  | nil => exact ⟨[], [], by simp [splitWhere_of_none hb]⟩
  | cons y a ih =>
    obtain ⟨pieces, piece, ih⟩ := ih
    rw [List.cons_append, splitWhere, ih]
    split
    · exact ⟨[] :: pieces, piece, rfl⟩
    · cases pieces with
      | nil => exact ⟨[], y :: piece, rfl⟩
      | cons first pieces => exact ⟨(y :: first) :: pieces, piece, rfl⟩

/-- What a text ends in, its normal form ends in too, unless it is a blank. -/
theorem normalize_concat (a : List Char) {c : Char} (hc : isBlank c = false) :
    ∃ s, normalize (a ++ [c]) = s ++ [c] := by
  obtain ⟨pieces, piece, hsplit⟩ :=
    splitWhere_append_of_none a (List.forall_mem_singleton.mpr hc)
  have hwords : words (a ++ [c]) = (pieces.filter fun w => !w.isEmpty) ++ [piece ++ [c]] := by
    rw [words, hsplit, List.filter_append]
    simp
  rw [normalize, hwords, intercalate_append (by simp), List.intercalate_singleton,
    ← List.append_assoc]
  exact ⟨_, rfl⟩

/-! ## What is not blank -/

theorem isAlpha_iff {c : Char} :
    c.isAlpha = true ↔
      (65 ≤ c.toNat ∧ c.toNat ≤ 90) ∨ (97 ≤ c.toNat ∧ c.toNat ≤ 122) := by
  change (decide ('A'.val ≤ c.val ∧ c.val ≤ 'Z'.val)
    || (decide ('a'.val ≤ c.val) && decide (c.val ≤ 'z'.val))) = true ↔ _
  simp [UInt32.le_iff_toNat_le]

/-- No letter of ASCII is blank. -/
theorem isBlank_of_isAlpha {c : Char} (h : c.isAlpha = true) : isBlank c = false := by
  rw [← Bool.not_eq_true]
  intro hc
  simp only [isBlank, Bool.or_eq_true, Bool.and_eq_true, decide_eq_true_eq, beq_iff_eq] at hc
  have := isAlpha_iff.mp h
  omega

theorem ne_of_isBlank {c d : Char} (hc : isBlank c = true) (hd : isBlank d = false) : c ≠ d := by
  rintro rfl
  exact Bool.noConfusion (hc.symm.trans hd)

/-- The characters of a text that are not blank. -/
def ink (s : List Char) : List Char :=
  s.filter fun c => !isBlank c

@[simp] theorem ink_nil : ink [] = [] := rfl

@[simp] theorem ink_append (a b : List Char) : ink (a ++ b) = ink a ++ ink b :=
  List.filter_append ..

theorem ink_cons_of_blank {c : Char} (hc : isBlank c = true) (s : List Char) :
    ink (c :: s) = ink s :=
  List.filter_cons_of_neg (by simp [hc])

theorem ink_cons_of_not_blank {c : Char} (hc : isBlank c = false) (s : List Char) :
    ink (c :: s) = c :: ink s :=
  List.filter_cons_of_pos (by simp [hc])

theorem ink_of_blank {s : List Char} (h : isBlankText s = true) : ink s = [] :=
  List.filter_eq_nil_iff.mpr fun c hc => by simp [isBlankText_iff.mp h c hc]

theorem mem_ink_iff {c : Char} {s : List Char} : c ∈ ink s ↔ c ∈ s ∧ isBlank c = false := by
  simp [ink]

/-- **Trimming keeps everything that is not blank.** -/
@[simp] theorem ink_trim (s : List Char) : ink (trim s) = ink s := by
  obtain ⟨a, b, ha, hb, hs⟩ := exists_eq_append_trim s
  conv_rhs => rw [hs]
  rw [ink_append, ink_append, ink_of_blank ha, ink_of_blank hb, List.nil_append, List.append_nil]

theorem ink_intercalate (ws : List (List Char)) :
    ink (List.intercalate [' '] ws) = ink ws.flatten := by
  induction ws with
  | nil => rfl
  | cons w ws ih =>
    cases ws with
    | nil => rw [List.intercalate_singleton, List.flatten_singleton]
    | cons v vs =>
      rw [List.intercalate_cons_cons, List.append_assoc, ink_append, ink_append, ih,
        ink_of_blank (s := [' ']) (by decide), List.nil_append]
      exact (ink_append w _).symm

/-- **Normalising keeps everything that is not blank.** -/
@[simp] theorem ink_normalize (s : List Char) : ink (normalize s) = ink s := by
  rw [normalize, ink_intercalate, words, List.flatten_filter_not_isEmpty, flatten_splitWhere]
  exact List.filter_filter.trans (by simp [ink])

end TestScaffold.Text
