import Mathlib.Data.List.Chain
import TestScaffold.Declaration.Extract
import TestScaffold.Proofs.Text.Search
/-!
# Written declarations

A declaration arrives as text that an editor wrote, and is first of all cleaned:
comments and attribute groups go, white space is normalised. A **written** text
without slashes comes through unchanged (`Written.clean_eq`): its white space is
tidy, and a square bracket in it is closed at once, as that of an array rank is.

In a written text a parenthesis stands only behind a space or an opening bracket.
So a parenthesis right behind a name or a generic suffix opens a parameter list,
and the search for it finds the list (`Written.cutAt?_opening`).

Words and marks are written, and written texts may be put side by side, joined by
a space or enclosed in brackets; types, parameters and modifiers are put together
so.
-/

namespace TestScaffold.Declaration

open Text

/-! ## Neighbours -/

/-- What may stand next to each other: a parenthesis opens behind a space or an
opening bracket only, and a square bracket is closed at once. -/
def Follows (a b : Char) : Prop :=
  (b = '(' → a = ' ' ∨ a = '<' ∨ a = '(') ∧ (a = '[' → b = ']')

theorem follows_of_ne {a b : Char} (ha : a ≠ '[') (hb : b ≠ '(') : Follows a b :=
  ⟨fun h => absurd h hb, fun h => absurd h ha⟩

/-- Behind a space or an opening bracket anything may stand. -/
theorem follows_of_opening {a : Char} (ha : a = ' ' ∨ a = '<' ∨ a = '(') (b : Char) :
    Follows a b := by
  refine ⟨fun _ => ha, ?_⟩
  rintro rfl
  exact absurd ha (by decide)

/-- **A written text**: tidy and with proper neighbours. -/
structure Written (s : List Char) : Prop where
  /-- It holds something. -/
  ne_nil : s ≠ []
  /-- Its only blanks are single spaces inside. -/
  tidy : Tidy s
  /-- Neighbours are proper. -/
  chain : s.IsChain Follows
  /-- No square bracket is left open at the end. -/
  last : s.getLast? ≠ some '['

namespace Written

/-- A word without blanks and opening brackets is written. -/
theorem of_solid {s : List Char} (hne : s ≠ [])
    (h : ∀ c ∈ s, isBlank c = false ∧ c ≠ '(' ∧ c ≠ '[') : Written s where
  ne_nil := hne
  tidy := .of_solid fun c hc => (h c hc).1
  chain := by
    refine List.isChain_iff_forall_rel_of_append_cons_cons.mpr ?_
    rintro a b x y rfl
    exact follows_of_ne (h a (by simp)).2.2 (h b (by simp)).2.1
  last := fun hlast => (h _ (List.mem_of_getLast? hlast)).2.2 rfl

/-- **Written texts may be put side by side** when the second does not begin with a
parenthesis. -/
theorem append {a b : List Char} (ha : Written a) (hb : Written b)
    (hhead : b.head? ≠ some '(') : Written (a ++ b) where
  ne_nil := by simp [ha.ne_nil]
  tidy := ha.tidy.append hb.tidy
  chain := by
    refine ha.chain.append hb.chain fun x hx y hy => follows_of_ne ?_ ?_
    · rintro rfl
      exact ha.last hx
    · rintro rfl
      exact hhead hy
  last := by
    rw [List.getLast?_append_of_ne_nil _ hb.ne_nil]
    exact hb.last

/-- **Written texts may be joined by a space.** -/
theorem join {a b : List Char} (ha : Written a) (hb : Written b) :
    Written (a ++ ' ' :: b) where
  ne_nil := by simp
  tidy := ha.tidy.join hb.tidy ha.ne_nil hb.ne_nil
  chain := by
    refine ha.chain.append (hb.chain.cons fun y _ => follows_of_opening (.inl rfl) y) ?_
    intro x hx y hy
    refine follows_of_ne ?_ ?_
    · rintro rfl
      exact ha.last hx
    · have hy : ' ' = y := by simpa using hy
      rw [← hy]
      decide
  last := by
    rw [List.getLast?_append_of_ne_nil _ (by simp), List.getLast?_cons_of_ne_nil hb.ne_nil]
    exact hb.last

/-- An opening bracket may stand in front of a written text. -/
theorem cons {o : Char} (ho : o = '<' ∨ o = '(') {s : List Char} (hs : Written s) :
    Written (o :: s) where
  ne_nil := List.cons_ne_nil o s
  tidy := .solid (by rcases ho with rfl | rfl <;> decide) hs.tidy
  chain := hs.chain.cons fun y _ => follows_of_opening (.inr ho) y
  last := by
    rw [List.getLast?_cons_of_ne_nil hs.ne_nil]
    exact hs.last

/-- Items of a list are joined by a comma and a space. -/
theorem comma {a b : List Char} (ha : Written a) (hb : Written b) :
    Written (a ++ ([',', ' '] ++ b)) := by
  have hcomma : Written [','] := .of_solid (by simp) (by decide)
  have := (ha.append hcomma (by decide)).join hb
  rwa [List.append_assoc] at this

/-- Written words joined by spaces are written. -/
theorem intercalate {ws : List (List Char)} (hne : ws ≠ []) (h : ∀ w ∈ ws, Written w) :
    Written (List.intercalate [' '] ws) :=
  intercalate_of_join hne h fun _ _ ha hb => ha.join hb

end Written

/-- Written parameters between their parentheses have proper neighbours. -/
theorem chain_parentheses {params : List Char} (h : params = [] ∨ Written params) :
    (['('] ++ (params ++ [')'])).IsChain Follows := by
  have hclose : Written [')'] := .of_solid (by simp) (by decide)
  rcases h with rfl | h
  · exact (hclose.cons (.inr rfl)).chain
  · exact ((h.append hclose (by decide)).cons (.inr rfl)).chain

/-! ## Cleaning -/

/-- What does not begin a line comment stays. -/
theorem dropLineComments_cons {c : Char} {s : List Char} (h : c = '/' → s.head? ≠ some '/') :
    dropLineComments false (c :: s) = c :: dropLineComments false s := by
  rw [dropLineComments.eq_def]
  dsimp only
  rw [if_neg Bool.false_ne_true]
  split
  · next hc =>
    subst hc
    split
    · exact absurd rfl (h rfl)
    · rfl
  · rfl

/-- A text without slashes holds no line comment. -/
theorem dropLineComments_append_plain {a : List Char} (h : '/' ∉ a) (s : List Char) :
    dropLineComments false (a ++ s) = a ++ dropLineComments false s := by
  induction a with
  | nil => rfl
  | cons c a ih =>
    rw [List.mem_cons, not_or] at h
    rw [List.cons_append, dropLineComments_cons fun hc => absurd hc.symm h.1, ih h.2,
      List.cons_append]

theorem dropLineComments_eq {s : List Char} (h : '/' ∉ s) : dropLineComments false s = s := by
  have := dropLineComments_append_plain h []
  rwa [List.append_nil, dropLineComments, List.append_nil] at this

/-- A text without slashes holds no block comment. -/
theorem dropBlockComments_append_plain {a : List Char} (h : '/' ∉ a) (s : List Char) :
    dropBlockComments (a ++ s) = a ++ dropBlockComments s := by
  induction a with
  | nil => rfl
  | cons c a ih =>
    rw [List.mem_cons, not_or] at h
    rw [List.cons_append, dropBlockComments]
    · rw [ih h.2, List.cons_append]
    · rintro rest rfl
      exact absurd rfl h.1

theorem dropBlockComments_eq {s : List Char} (h : '/' ∉ s) : dropBlockComments s = s := by
  have := dropBlockComments_append_plain h []
  rwa [List.append_nil, dropBlockComments, List.append_nil] at this

/-- A square bracket that is closed at once opens no attribute group. -/
theorem dropAttributeGroups_eq {s : List Char} (h : s.IsChain Follows) :
    dropAttributeGroups s = s := by
  induction s with
  | nil => rw [dropAttributeGroups]
  | cons c s ih =>
    have hno : ¬ (c = '[' ∧ startsIdentifier (trimStart s) = true) := by
      rintro ⟨rfl, hstart⟩
      cases s with
      | nil => exact absurd hstart (by decide)
      | cons d s =>
        -- a group begins with a letter, but behind the bracket stands its partner
        have hd : d = ']' := (List.isChain_cons_cons.mp h).1.2 rfl
        subst hd
        have hclosed : startsIdentifier (trimStart (']' :: s)) = false := rfl
        rw [hclosed] at hstart
        exact Bool.noConfusion hstart
    rw [dropAttributeGroups, if_neg hno, ih h.tail]

/-- **Cleaning leaves a written text without slashes alone**, but for the space at
its end. -/
theorem Written.clean_eq {s : List Char} (h : Written s) (hslash : '/' ∉ s) :
    clean (s ++ [' ']) = s := by
  have hslash : '/' ∉ s ++ [' '] := by simp [hslash]
  have hchain : (s ++ [' ']).IsChain Follows := by
    refine h.chain.append (.singleton _) fun x hx y hy => follows_of_ne ?_ ?_
    · rintro rfl
      exact h.last hx
    · have hy : ' ' = y := by simpa using hy
      rw [← hy]
      decide
  unfold clean
  dsimp only
  rw [dropLineComments_eq hslash, dropBlockComments_eq hslash, dropAttributeGroups_eq hchain,
    ite_self, normalize_append_space, h.tidy.normalize_eq]

/-- **The declaration of a written text** is that text with what follows the name
behind a space. -/
theorem Written.joinWords_clean {s tail : List Char} (h : Written s) (hslash : '/' ∉ s)
    (htail : Tidy tail) (hne : tail ≠ []) :
    joinWords (clean (s ++ [' '])) tail = s ++ ' ' :: tail := by
  rw [joinWords, h.clean_eq hslash, (h.tidy.join htail h.ne_nil hne).normalize_eq]

/-- Nothing but a space in front of the name is dropped. -/
theorem joinWords_clean_space {tail : List Char} (htail : Tidy tail) :
    joinWords (clean [' ']) tail = tail := by
  have hclean : clean [' '] = [] := by
    unfold clean
    dsimp only
    rw [dropLineComments_eq (by decide), dropBlockComments_eq (by decide), if_neg (by decide)]
    rfl
  rw [joinWords, hclean, List.nil_append, normalize_cons_space, htail.normalize_eq]

/-! ## Finding a parameter list -/

/-- Where no parenthesis stands behind the last character of a word, the word with a
parenthesis behind it stands nowhere. -/
theorem not_infix_of_chain {w s : List Char} {x : Char} (hx : w.getLast? = some x)
    (h : s.IsChain fun a b => b = '(' → a ≠ x) : ¬ w ++ ['('] <:+: s := by
  intro hinfix
  obtain ⟨w', rfl⟩ : ∃ w', w = w' ++ [x] := List.getLast?_eq_some_iff.mp hx
  have hpair : [x, '('] <:+: s := List.IsInfix.trans ⟨w', [], by simp⟩ hinfix
  exact (List.isChain_pair.mp <| List.IsChain.infix h hpair) rfl rfl

/-- In a written text no parenthesis stands behind a name or a generic suffix. -/
theorem chain_of_follows {s : List Char} (h : s.IsChain Follows) {x : Char}
    (hxo : x ≠ ' ' ∧ x ≠ '<' ∧ x ≠ '(') : s.IsChain fun a b => b = '(' → a ≠ x := by
  refine h.imp fun a b hab hb => ?_
  rintro rfl
  rcases hab.1 hb with ha | ha | ha
  · exact hxo.1 ha
  · exact hxo.2.1 ha
  · exact hxo.2.2 ha

/-- **A parenthesis behind a name opens the parameter list**: the search for the
name with the parenthesis finds it where the written text in front of it ends. -/
theorem Written.cutAt?_opening {a w : List Char} (h : Written (a ++ w)) {x : Char}
    (hx : w.getLast? = some x) (hxo : x ≠ ' ' ∧ x ≠ '<' ∧ x ≠ '(') (s : List Char) :
    cutAt? (w ++ ['(']) (a ++ (w ++ '(' :: s)) = some (a, s) := by
  have hcut : ∀ b, b ≠ [] → b <:+ a → ¬ w ++ ['('] <+: b ++ (w ++ ['('] ++ s) := by
    rintro b hb ⟨a', rfl⟩ hpre
    -- the parenthesis of an earlier occurrence stands inside the written text
    have hshort : w ++ ['('] <+: b ++ w := by
      refine List.prefix_of_prefix_length_le hpre ⟨'(' :: s, by simp⟩ ?_
      have := List.length_pos_iff.mpr hb
      simp only [List.length_append, List.length_singleton]
      omega
    have hchain : (b ++ w).IsChain Follows := h.chain.suffix ⟨a', by simp⟩
    exact not_infix_of_chain hx (chain_of_follows hchain hxo) hshort.isInfix
  have := cutAt?_append (w := w ++ ['(']) (a := a) (s := s) (by simp) hcut
  simpa using this

/-! ## The runs of a written text -/

section Runs

variable {w : List Char}

/-- **A mark lengthens the last run**, so that it is not the word. -/
theorem notMem_runs_append {s b : List Char} (hs : w ∉ (runs s).dropLast) (hb : ' ' ∉ b)
    {c : Char} (hc : c ∈ b) (hcw : c ∉ w) : w ∉ runs (s ++ b) := by
  obtain ⟨r, -, hruns⟩ := runs_append_solid hb s
  rw [hruns, List.mem_append, List.mem_singleton, not_or]
  refine ⟨hs, ?_⟩
  rintro rfl
  exact hcw (List.mem_append_right _ hc)

/-- A mark in front lengthens the first run. -/
theorem notMem_runs_prepend {a s : List Char} (hs : w ∉ runs s) (ha : ' ' ∉ a) {c : Char}
    (hc : c ∈ a) (hcw : c ∉ w) : w ∉ runs (a ++ s) := by
  obtain ⟨r, rs, hr, hruns⟩ := runs_append_of_solid ha s
  rw [hr, List.mem_cons, not_or] at hs
  rw [hruns, List.mem_cons, not_or]
  refine ⟨?_, hs.2⟩
  rintro rfl
  exact hcw (List.mem_append_left _ hc)

theorem notMem_runs_join {a b : List Char} (ha : w ∉ runs a) (hb : w ∉ runs b) :
    w ∉ runs (a ++ ' ' :: b) := by
  rw [runs_append_space, List.mem_append, not_or]
  exact ⟨ha, hb⟩

theorem notMem_runs_of_dropLast {s : List Char} (hs : w ∉ runs s) : w ∉ (runs s).dropLast :=
  fun hmem => hs (List.dropLast_subset _ hmem)

/-- The last run of a text may be the word when it ends the whole. -/
theorem notMem_dropLast_join {a b : List Char} (ha : w ∉ runs a)
    (hb : w ∉ (runs b).dropLast) : w ∉ (runs (a ++ ' ' :: b)).dropLast := by
  rw [runs_append_space, List.dropLast_append_of_ne_nil (runs_ne_nil b), List.mem_append, not_or]
  exact ⟨ha, hb⟩

theorem notMem_dropLast_intercalate {xs : List (List Char)} {last : List Char}
    (hxs : ∀ x ∈ xs, w ∉ runs x) (hlast : w ∉ (runs last).dropLast) :
    w ∉ (runs (List.intercalate [' '] (xs ++ [last]))).dropLast := by
  induction xs with
  | nil => rwa [List.nil_append, List.intercalate_singleton]
  | cons x xs ih =>
    rw [List.cons_append, List.intercalate_cons_of_ne_nil (by simp), List.append_assoc]
    exact notMem_dropLast_join (hxs x List.mem_cons_self)
      (ih fun y hy => hxs y (List.mem_cons_of_mem x hy))

/-- Behind an item of a list stands a comma, so that none of its runs is the word. -/
theorem notMem_dropLast_comma {a b : List Char} (hw : ',' ∉ w) (ha : w ∉ (runs a).dropLast)
    (hb : w ∉ (runs b).dropLast) : w ∉ (runs (a ++ ([',', ' '] ++ b))).dropLast := by
  have hitem : w ∉ runs (a ++ [',']) :=
    notMem_runs_append ha (by decide) (List.mem_singleton.mpr rfl) hw
  have := notMem_dropLast_join hitem hb
  rwa [List.append_assoc] at this

end Runs

end TestScaffold.Declaration
