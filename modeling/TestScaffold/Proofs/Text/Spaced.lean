import TestScaffold.Proofs.Text.Spacing
/-!
# Texts made of tokens

Where the white space of a text does not matter, the text is known by its
**tokens**. `Spaced` relates the two: a spaced text holds its tokens in order,
with any number of blanks, or none, in front of, between and behind them.

The readers of this library cut texts at tokens and trim what is left. The
lemmas below follow them: a spaced text may be cut between two tokens
(`Spaced.exists_of_append`), at the separators of a list
(`Spaced.exists_of_intercalate`) or around a group (`Spaced.exists_of_group`),
and trimming leaves it spaced (`Spaced.trim`).
-/

namespace TestScaffold.Text

/-- **A spaced text**: the given tokens with nothing but blanks in front of,
between and behind them. -/
inductive Spaced : List (List Char) → List Char → Prop
  | nil {b : List Char} (hb : isBlankText b = true) : Spaced [] b
  | cons {b w s : List Char} {ws : List (List Char)} (hb : isBlankText b = true)
      (hs : Spaced ws s) : Spaced (w :: ws) (b ++ (w ++ s))

namespace Spaced

/-! ## Putting together -/

/-- Blanks may be put in front. -/
theorem blank_append {b s : List Char} {ws : List (List Char)}
    (hb : isBlankText b = true) (h : Spaced ws s) : Spaced ws (b ++ s) := by
  cases h with
  | nil h =>
    refine .nil ?_
    rw [isBlankText_append, hb, h]
    rfl
  | @cons b' w s ws h hs =>
    rw [← List.append_assoc]
    refine .cons ?_ hs
    rw [isBlankText_append, hb, h]
    rfl

/-- **Spaced texts may be put side by side.** -/
theorem append {a b : List Char} {vs ws : List (List Char)} (ha : Spaced vs a)
    (hb : Spaced ws b) : Spaced (vs ++ ws) (a ++ b) := by
  induction ha with
  | nil h => exact hb.blank_append h
  | cons h _ ih =>
    rw [List.append_assoc, List.append_assoc]
    exact .cons h ih

/-- Blanks may be put behind. -/
theorem append_blank {b s : List Char} {ws : List (List Char)} (h : Spaced ws s)
    (hb : isBlankText b = true) : Spaced ws (s ++ b) := by
  have := h.append (.nil hb)
  rwa [List.append_nil] at this

/-- A token alone is spaced. -/
theorem token (w : List Char) : Spaced [w] w := by
  have : Spaced [w] ([] ++ (w ++ [])) := .cons rfl (.nil rfl)
  rwa [List.nil_append, List.append_nil] at this

/-- **Joining spaced texts** joins their tokens; behind each separator there may
stand a blank text. -/
theorem intercalate {sep b : List Char} (hb : isBlankText b = true) {α : Type}
    {tokens : α → List (List Char)} {text : α → List Char} {xs : List α}
    (h : ∀ x ∈ xs, Spaced (tokens x) (text x)) :
    Spaced (List.intercalate [sep] (xs.map tokens))
      (List.intercalate (sep ++ b) (xs.map text)) := by
  induction xs with
  | nil => exact .nil rfl
  | cons x xs ih =>
    have hx := h x List.mem_cons_self
    cases xs with
    | nil => simpa using hx
    | cons y ys =>
      have hrest := ih fun z hz => h z (List.mem_cons_of_mem x hz)
      rw [List.map_cons] at hrest
      simp only [List.map_cons, List.intercalate_cons_cons] at hrest ⊢
      exact (hx.append ((token sep).append_blank hb)).append hrest

/-! ## Taking apart -/

/-- Without tokens there are only blanks. -/
theorem blank_of_nil {s : List Char} (h : Spaced [] s) : isBlankText s = true := by
  cases h with
  | nil hb => exact hb

/-- A spaced text with one token. -/
theorem exists_of_singleton {w s : List Char} (h : Spaced [w] s) :
    ∃ a b, isBlankText a = true ∧ isBlankText b = true ∧ s = a ++ (w ++ b) := by
  cases h with
  | cons ha hs => exact ⟨_, _, ha, hs.blank_of_nil, rfl⟩

/-- **A spaced text may be cut between two tokens.** -/
theorem exists_of_append {s : List Char} {vs ws : List (List Char)}
    (h : Spaced (vs ++ ws) s) : ∃ a b, Spaced vs a ∧ Spaced ws b ∧ s = a ++ b := by
  induction vs generalizing s with
  | nil => exact ⟨[], s, .nil rfl, h, rfl⟩
  | cons v vs ih =>
    cases h with
    | @cons b _ t _ hb ht =>
      obtain ⟨x, y, hx, hy, rfl⟩ := ih ht
      exact ⟨b ++ (v ++ x), y, .cons hb hx, hy, by simp⟩

/-- A spaced text is cut in front of a token, with the blanks there on the left. -/
theorem exists_of_append_cons {w s : List Char} {vs ws : List (List Char)}
    (h : Spaced (vs ++ w :: ws) s) :
    ∃ a b, Spaced vs a ∧ Spaced ws b ∧ s = a ++ (w ++ b) := by
  obtain ⟨x, y, hx, hy, rfl⟩ := h.exists_of_append
  cases hy with
  | @cons b _ t _ hb ht => exact ⟨x ++ b, t, hx.append_blank hb, ht, by simp⟩

/-- **A group of a spaced text** has the blanks inside its brackets with its
content. -/
theorem exists_of_group {o c s : List Char} {ws : List (List Char)}
    (h : Spaced (o :: (ws ++ [c])) s) :
    ∃ a x b, isBlankText a = true ∧ Spaced ws x ∧ isBlankText b = true
      ∧ s = a ++ (o ++ (x ++ (c ++ b))) := by
  cases h with
  | cons ha hs =>
    obtain ⟨x, y, hx, hy, rfl⟩ := hs.exists_of_append_cons
    exact ⟨_, x, y, ha, hx, hy.blank_of_nil, rfl⟩

/-- **A spaced list** is cut at its separators into spaced items. -/
theorem exists_of_intercalate {α : Type} {sep s : List Char}
    {tokens : α → List (List Char)} {xs : List α} (hne : xs ≠ [])
    (h : Spaced (List.intercalate [sep] (xs.map tokens)) s) :
    ∃ pieces, List.Forall₂ (fun x piece => Spaced (tokens x) piece) xs pieces
      ∧ s = List.intercalate sep pieces := by
  induction xs generalizing s with
  | nil => exact absurd rfl hne
  | cons x xs ih =>
    cases xs with
    | nil =>
      refine ⟨[s], .cons ?_ .nil, by simp⟩
      simpa using h
    | cons y ys =>
      simp only [List.map_cons, List.intercalate_cons_cons, List.append_assoc,
        List.singleton_append] at h
      obtain ⟨a, b, ha, hb, rfl⟩ := h.exists_of_append_cons
      obtain ⟨pieces, hpieces, rfl⟩ := ih (by simp) (by simpa using hb)
      refine ⟨a :: pieces, .cons ha hpieces, ?_⟩
      cases hpieces with
      | cons _ _ => rw [List.intercalate_cons_cons, List.append_assoc]

/-! ## Trimming -/

theorem trimStart {s : List Char} {ws : List (List Char)} (h : Spaced ws s)
    (hws : ∀ w ∈ ws, trim w = w) : Spaced ws (trimStart s) := by
  induction h with
  | nil hb => exact .nil (by rw [trimStart_eq_nil_iff.mpr hb]; rfl)
  | @cons b w s ws hb hs ih =>
    rw [trimStart_append_of_blank hb]
    by_cases hw : w = []
    · subst hw
      rw [List.nil_append]
      exact Spaced.cons (b := []) rfl (ih fun v hv => hws v (List.mem_cons_of_mem _ hv))
    · have hhead := (trim_eq_self_iff.mp (hws w List.mem_cons_self)).1
      rw [trimStart_eq_self_iff.mpr]
      · exact Spaced.cons (b := []) rfl hs
      · rwa [List.head?_append_of_ne_nil _ hw]

theorem trimEnd {s : List Char} {ws : List (List Char)} (h : Spaced ws s)
    (hws : ∀ w ∈ ws, trim w = w) : Spaced ws (trimEnd s) := by
  induction h with
  | nil hb => exact .nil (by rw [trimEnd_eq_nil_iff.mpr hb]; rfl)
  | @cons b w s ws hb _ ih =>
    have hrest := ih fun v hv => hws v (List.mem_cons_of_mem _ hv)
    rw [← List.append_assoc, trimEnd_append]
    by_cases hs : Text.trimEnd s = []
    · rw [hs] at hrest
      rw [if_pos hs]
      by_cases hw : w = []
      · subst hw
        rw [List.append_nil, trimEnd_eq_nil_iff.mpr hb]
        exact Spaced.cons (b := []) rfl hrest
      · have hlast := (trim_eq_self_iff.mp (hws w List.mem_cons_self)).2
        rw [trimEnd_eq_self_iff.mpr]
        · have := Spaced.cons (w := w) hb hrest
          rwa [List.append_nil] at this
        · rwa [List.getLast?_append_of_ne_nil _ hw]
    · rw [if_neg hs, List.append_assoc]
      exact .cons hb hrest

/-- **Trimming leaves a text of trimmed tokens spaced.** -/
theorem trim {s : List Char} {ws : List (List Char)} (h : Spaced ws s)
    (hws : ∀ w ∈ ws, trim w = w) : Spaced ws (trim s) :=
  (h.trimStart hws).trimEnd hws

/-- A trimmed spaced text ends with its last token. -/
theorem exists_trim_eq_append {w s : List Char} {ws : List (List Char)}
    (h : Spaced (ws ++ [w]) s) (hw : Text.trim w = w) (hne : w ≠ []) :
    ∃ a, Text.trim s = a ++ w := by
  obtain ⟨x, y, -, hy, rfl⟩ := h.exists_of_append_cons
  cases hy with
  | nil hb =>
    have hends := trim_eq_self_iff.mp hw
    rw [← List.append_assoc, trim_append_blank hb, Text.trim]
    have hstart : ∃ a, Text.trimStart (x ++ w) = a ++ w := by
      rw [Text.trimStart, List.dropWhile_append]
      split
      · refine ⟨[], ?_⟩
        rw [List.nil_append]
        exact trimStart_eq_self_iff.mpr hends.1
      · exact ⟨_, rfl⟩
    obtain ⟨a, ha⟩ := hstart
    refine ⟨a, ?_⟩
    rw [ha, trimEnd_eq_self_iff.mpr]
    rw [List.getLast?_append_of_ne_nil _ hne]
    exact hends.2

end Spaced

end TestScaffold.Text
