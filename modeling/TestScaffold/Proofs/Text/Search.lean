import TestScaffold.Proofs.Text.Spacing
import TestScaffold.Text.Cut
/-!
# Where a cut falls

The cuts of this library are defined by their search from one end. Here they are
described by the text alone: `cutAt?_append` says that a text is cut at a given
occurrence of a word as soon as no earlier one overlaps it, `cutLastAt?_append`
is the same from the other end, and `cutAt?_eq_none_iff` says that there is no
cut exactly when the word stands nowhere. Splitting is repeated cutting
(`splitAt_eq`).

A word *fenced* by spaces is found by looking at the runs between the spaces of
the text: it stands there when one of the runs is the word, with a run on either
side of it. `cutAt?_fenced` and `cutAt?_fenced_eq_none` cut at such a word.
-/

namespace TestScaffold.Text

/-! ## At an element -/

section Elements

variable {α : Type} {p : α → Bool}

/-- What satisfies nothing of `p` is passed over. -/
theorem cutWhere?_append {a : List α} (h : ∀ x ∈ a, p x = false) (b : List α) :
    cutWhere? p (a ++ b)
      = (cutWhere? p b).map fun (before, after) => (a ++ before, after) := by
  induction a with
  | nil => simp
  | cons x a ih =>
    rw [List.cons_append, cutWhere?, if_neg (by simp [h x List.mem_cons_self]),
      ih fun y hy => h y (List.mem_cons_of_mem x hy), Option.map_map]
    rfl

theorem cutWhere?_append_cons {a b : List α} {x : α} (h : ∀ y ∈ a, p y = false)
    (hx : p x = true) : cutWhere? p (a ++ x :: b) = some (a, b) := by
  rw [cutWhere?_append h, cutWhere?, if_pos hx]
  simp

theorem cutWhere?_eq_none {a : List α} (h : ∀ x ∈ a, p x = false) :
    cutWhere? p a = none := by
  have := cutWhere?_append h []
  rwa [List.append_nil] at this

theorem cutLastWhere?_eq_none {a : List α} (h : ∀ x ∈ a, p x = false) :
    cutLastWhere? p a = none := by
  induction a with
  | nil => rfl
  | cons x a ih =>
    rw [cutLastWhere?, ih fun y hy => h y (List.mem_cons_of_mem x hy)]
    exact if_neg (by simp [h x List.mem_cons_self])

theorem cutLastWhere?_append_cons {a b : List α} {x : α} (hx : p x = true)
    (h : ∀ y ∈ b, p y = false) : cutLastWhere? p (a ++ x :: b) = some (a, b) := by
  induction a with
  | nil =>
    rw [List.nil_append, cutLastWhere?, cutLastWhere?_eq_none h]
    exact if_pos hx
  | cons y a ih => rw [List.cons_append, cutLastWhere?, ih]

end Elements

/-! ## At a word -/

theorem stripStart?_append (w s : List Char) : stripStart? w (w ++ s) = some s :=
  stripStart?_eq_some_iff.mpr rfl

theorem stripStart?_eq_none_iff {w s : List Char} :
    stripStart? w s = none ↔ ¬ w <+: s := by
  rw [← not_iff_not, not_not, ← ne_eq, Option.ne_none_iff_exists']
  constructor
  · rintro ⟨rest, h⟩
    exact ⟨rest, (stripStart?_eq_some_iff.mp h).symm⟩
  · rintro ⟨rest, rfl⟩
    exact ⟨rest, stripStart?_append w rest⟩

/-- **There is no cut when the word stands nowhere.** -/
theorem cutAt?_eq_none_iff {w s : List Char} : cutAt? w s = none ↔ ¬ w <:+: s := by
  induction s with
  | nil => simp [cutAt?]
  | cons c s ih =>
    rw [cutAt?, List.infix_cons_iff, not_or, ← stripStart?_eq_none_iff, ← ih]
    cases stripStart? w (c :: s) with
    | none => simp
    | some rest => simp

/-- **The cut falls at an occurrence that no earlier one overlaps.** -/
theorem cutAt?_append {w a s : List Char} (hw : w ≠ [])
    (h : ∀ b, b ≠ [] → b <:+ a → ¬ w <+: b ++ (w ++ s)) :
    cutAt? w (a ++ (w ++ s)) = some (a, s) := by
  induction a with
  | nil =>
    obtain ⟨x, w, rfl⟩ := List.exists_cons_of_ne_nil hw
    rw [List.nil_append, List.cons_append, cutAt?, ← List.cons_append,
      stripStart?_append]
  | cons c a ih =>
    have hhead := h (c :: a) (by simp) (List.suffix_refl _)
    have htail := ih fun b hb hs => h b hb (hs.trans (List.suffix_cons c a))
    rw [List.cons_append, cutAt?, ← List.cons_append,
      stripStart?_eq_none_iff.mpr hhead, htail]
    rfl

/-- There is no last cut when the word stands nowhere. -/
theorem cutLastAt?_eq_none_iff {w s : List Char} :
    cutLastAt? w s = none ↔ ¬ w <:+: s := by
  induction s with
  | nil => simp [cutLastAt?]
  | cons c s ih =>
    rw [cutLastAt?, List.infix_cons_iff, not_or, ← stripStart?_eq_none_iff, ← ih]
    cases cutLastAt? w s with
    | none => simp
    | some cut => simp

/-- **The last cut falls at an occurrence that no later one overlaps.** -/
theorem cutLastAt?_append {x : Char} {w s : List Char} (a : List Char)
    (h : ¬ (x :: w) <:+: w ++ s) :
    cutLastAt? (x :: w) (a ++ (x :: w ++ s)) = some (a, s) := by
  induction a with
  | nil =>
    rw [List.nil_append, List.cons_append, cutLastAt?, cutLastAt?_eq_none_iff.mpr h,
      ← List.cons_append, stripStart?_append]
    rfl
  | cons c a ih => rw [List.cons_append, cutLastAt?, ih]

/-- What is put in front of a text does not move its last cut. -/
theorem cutLastAt?_append_of_eq_some {w s before after : List Char}
    (h : cutLastAt? w s = some (before, after)) (a : List Char) :
    cutLastAt? w (a ++ s) = some (a ++ before, after) := by
  induction a with
  | nil => exact h
  | cons c a ih =>
    rw [List.cons_append, cutLastAt?, ih]
    rfl

/-- **The last cut loses the word** and nothing else. -/
theorem eq_append_of_cutLastAt? {w s before after : List Char}
    (h : cutLastAt? w s = some (before, after)) : s = before ++ (w ++ after) := by
  induction s generalizing before with
  | nil =>
    rw [cutLastAt?] at h
    split at h
    · next hw =>
      obtain ⟨rfl, rfl⟩ := Prod.mk.inj (Option.some.inj h)
      rw [List.isEmpty_iff.mp hw]
      rfl
    · exact absurd h (by simp)
  | cons c s ih =>
    rw [cutLastAt?] at h
    split at h
    · next before' after' hcut =>
      obtain ⟨rfl, rfl⟩ := Prod.mk.inj (Option.some.inj h)
      rw [List.cons_append, ← ih hcut]
    · obtain ⟨rest, hstrip, heq⟩ := Option.map_eq_some_iff.mp h
      obtain ⟨rfl, rfl⟩ := Prod.mk.inj heq
      rw [List.nil_append, stripStart?_eq_some_iff.mp hstrip]

/-! ## Where a word stands -/

section Infix

variable {α : Type} {w : List α} {x : α} (hx : x ∉ w)
include hx

/-- A word does not reach over an element that it does not hold. -/
theorem prefix_append_cons_iff (a b : List α) : w <+: a ++ x :: b ↔ w <+: a := by
  refine ⟨fun h => ?_, fun h => h.trans (List.prefix_append a _)⟩
  rcases List.prefix_or_prefix_of_prefix h (List.prefix_append a (x :: b)) with ha | ⟨t, rfl⟩
  · exact ha
  · cases t with
    | nil => simp
    | cons y t =>
      have hxy := (List.prefix_append_right_inj a).mp h
      rw [(List.cons_prefix_cons.mp hxy).1] at hx
      exact absurd (by simp) hx

/-- **A word stands on one side** of an element that it does not hold. -/
theorem infix_append_cons_iff (a b : List α) : w <:+: a ++ x :: b ↔ w <:+: a ∨ w <:+: b := by
  induction a with
  | nil =>
    have hnil := prefix_append_cons_iff hx [] b
    rw [List.nil_append] at hnil ⊢
    rw [List.infix_cons_iff, hnil, List.infix_nil, List.prefix_nil]
  | cons c a ih =>
    have hcons := prefix_append_cons_iff hx (c :: a) b
    rw [List.cons_append] at hcons ⊢
    rw [List.infix_cons_iff, List.infix_cons_iff, hcons, ih, or_assoc]

end Infix

/-! ## Splitting at a word -/

/-- Characters that are still to be skipped do not count. -/
theorem splitAtSkipping_eq_drop (w : List Char) (n : Nat) (s : List Char) :
    splitAtSkipping w n s = splitAtSkipping w 0 (s.drop n) := by
  induction s generalizing n with
  | nil => simp [splitAtSkipping]
  | cons c s ih =>
    cases n with
    | zero => rfl
    | succ n => rw [splitAtSkipping, ih, List.drop_succ_cons]

/-- **Splitting is repeated cutting.** -/
theorem splitAt_eq {w : List Char} (hw : w ≠ []) (s : List Char) :
    splitAt w s =
      match cutAt? w s with
      | some (before, after) => before :: splitAt w after
      | none => [s] := by
  induction s with
  | nil => simp [splitAt, splitAtSkipping, cutAt?, hw]
  | cons c s ih =>
    unfold splitAt at ih ⊢
    rw [splitAtSkipping, cutAt?]
    cases hs : stripStart? w (c :: s) with
    | some after =>
      obtain ⟨x, w, rfl⟩ := List.exists_cons_of_ne_nil hw
      have heq : c :: s = x :: (w ++ after) := stripStart?_eq_some_iff.mp hs
      obtain ⟨-, rfl⟩ := List.cons.inj heq
      rw [if_pos (by rfl), splitAtSkipping_eq_drop]
      simp
    | none =>
      rw [if_neg (by simp), ih]
      cases cutAt? w s with
      | none => rfl
      | some cut => rfl

/-! ## The runs between spaces -/

/-- The runs of characters between the spaces of a text. -/
def runs (s : List Char) : List (List Char) :=
  splitWhere (· == ' ') s

theorem runs_ne_nil (s : List Char) : runs s ≠ [] :=
  splitWhere_ne_nil _ s

theorem runs_append_space (a b : List Char) : runs (a ++ ' ' :: b) = runs a ++ runs b :=
  splitWhere_append_cons a b rfl

theorem runs_of_solid {s : List Char} (h : ' ' ∉ s) : runs s = [s] :=
  splitWhere_of_none fun _ hc => beq_false_of_ne fun he => h (he ▸ hc)

/-- A text ends in a run, with a space in front of it unless it is the whole
text. -/
theorem exists_last_run (s : List Char) :
    ∃ r, ' ' ∉ r ∧ (s = r ∨ ∃ a, s = a ++ ' ' :: r) := by
  induction s with
  | nil => exact ⟨[], by simp, .inl rfl⟩
  | cons c s ih =>
    obtain ⟨r, hr, rfl | ⟨a, rfl⟩⟩ := ih
    · by_cases hc : c = ' '
      · exact ⟨s, hr, .inr ⟨[], by rw [hc]; rfl⟩⟩
      · exact ⟨c :: s, by simp [Ne.symm hc, hr], .inl rfl⟩
    · exact ⟨r, hr, .inr ⟨c :: a, rfl⟩⟩

/-- A text begins with a run, with a space behind it unless it is the whole
text. -/
theorem exists_first_run (s : List Char) :
    ∃ r, ' ' ∉ r ∧ (s = r ∨ ∃ b, s = r ++ ' ' :: b) := by
  induction s with
  | nil => exact ⟨[], by simp, .inl rfl⟩
  | cons c s ih =>
    by_cases hc : c = ' '
    · exact ⟨[], by simp, .inr ⟨s, by rw [hc]; rfl⟩⟩
    · obtain ⟨r, hr, rfl | ⟨b, rfl⟩⟩ := ih
      · exact ⟨c :: s, by simp [Ne.symm hc, hr], .inl rfl⟩
      · exact ⟨c :: r, by simp [Ne.symm hc, hr], .inr ⟨b, rfl⟩⟩

/-- What is put in front of a text without a space lengthens its first run. -/
theorem runs_append_of_solid {a : List Char} (ha : ' ' ∉ a) (s : List Char) :
    ∃ r rs, runs s = r :: rs ∧ runs (a ++ s) = (a ++ r) :: rs := by
  obtain ⟨r, hr, rfl | ⟨b, rfl⟩⟩ := exists_first_run s
  · exact ⟨s, [], runs_of_solid hr, runs_of_solid (by simp [ha, hr])⟩
  · refine ⟨r, runs b, ?_, ?_⟩
    · rw [runs_append_space, runs_of_solid hr]
      rfl
    · rw [← List.append_assoc, runs_append_space, runs_of_solid (by simp [ha, hr])]
      rfl

/-- What is put behind a text without a space lengthens its last run. -/
theorem runs_append_solid {b : List Char} (hb : ' ' ∉ b) (s : List Char) :
    ∃ r, runs s = (runs s).dropLast ++ [r]
      ∧ runs (s ++ b) = (runs s).dropLast ++ [r ++ b] := by
  obtain ⟨r, hr, rfl | ⟨a, rfl⟩⟩ := exists_last_run s
  · refine ⟨s, ?_, ?_⟩
    · rw [runs_of_solid hr]
      rfl
    · rw [runs_of_solid hr, runs_of_solid (by simp [hb, hr])]
      rfl
  · have hruns : runs (a ++ ' ' :: r) = runs a ++ [r] := by
      rw [runs_append_space, runs_of_solid hr]
    have hrb : ' ' ∉ r ++ b := by simp [hb, hr]
    refine ⟨r, ?_, ?_⟩
    · rw [hruns, List.dropLast_concat]
    · rw [hruns, List.dropLast_concat, List.append_assoc, List.cons_append,
        runs_append_space, runs_of_solid hrb]

/-! ## A word between spaces -/

/-- A word with a space on either side. -/
def fenced (w : List Char) : List Char :=
  ' ' :: (w ++ [' '])

/-- A fenced word begins a text exactly when the word is its first run but one. -/
theorem runs_of_fenced_prefix {w s : List Char} (hw : ' ' ∉ w)
    (h : fenced w <+: s) : ∃ rs, rs ≠ [] ∧ runs s = [] :: w :: rs := by
  obtain ⟨b, rfl⟩ := h
  refine ⟨runs b, runs_ne_nil b, ?_⟩
  have : fenced w ++ b = [] ++ ' ' :: (w ++ ' ' :: b) := by simp [fenced]
  rw [this, runs_append_space, runs_append_space, runs_of_solid hw,
    runs_of_solid (by simp)]
  rfl

/-- **The cut at a fenced word** falls where the word stands, unless it is a run
of the text in front other than the first one, which has no space before it. -/
theorem cutAt?_fenced_of_tail {w a : List Char} (hw : ' ' ∉ w) (ha : w ∉ (runs a).tail)
    (s : List Char) : cutAt? (fenced w) (a ++ (fenced w ++ s)) = some (a, s) := by
  refine cutAt?_append (by simp [fenced]) fun b hb hsuffix hprefix => ha ?_
  obtain ⟨x, rfl⟩ := hsuffix
  obtain ⟨rs, -, hrs⟩ := runs_of_fenced_prefix hw hprefix
  have hsplit : b ++ (fenced w ++ s) = b ++ ' ' :: (w ++ ' ' :: s) := by simp [fenced]
  rw [hsplit, runs_append_space] at hrs
  -- the text `b` begins with a space, so its first run is empty and `w` is next
  obtain ⟨c, b, rfl⟩ := List.exists_cons_of_ne_nil hb
  have hc : c = ' ' := by
    obtain ⟨tail, htail⟩ := hprefix
    exact (List.cons.inj htail).1.symm
  subst hc
  rw [show ' ' :: b = [] ++ ' ' :: b from rfl, runs_append_space,
    runs_of_solid (by simp)] at hrs
  obtain ⟨r, tail, hr⟩ := List.exists_cons_of_ne_nil (runs_ne_nil b)
  rw [hr] at hrs
  obtain ⟨rfl, -⟩ := List.cons.inj (List.cons.inj hrs).2
  rw [runs_append_space, hr, List.tail_append_of_ne_nil (runs_ne_nil x)]
  simp

theorem cutAt?_fenced {w a : List Char} (hw : ' ' ∉ w) (ha : w ∉ runs a)
    (s : List Char) : cutAt? (fenced w) (a ++ (fenced w ++ s)) = some (a, s) :=
  cutAt?_fenced_of_tail hw (fun hmem => ha (List.mem_of_mem_tail hmem)) s

/-- **There is no cut at a fenced word** that is none of the runs between the first and
the last one. -/
theorem cutAt?_fenced_eq_none_of_tail {w s : List Char} (hw : ' ' ∉ w)
    (hs : w ∉ (runs s).tail.dropLast) : cutAt? (fenced w) s = none := by
  rw [cutAt?_eq_none_iff]
  rintro ⟨a, b, rfl⟩
  refine hs ?_
  have : a ++ fenced w ++ b = a ++ ' ' :: (w ++ ' ' :: b) := by simp [fenced]
  rw [this, runs_append_space, runs_append_space, runs_of_solid hw,
    List.tail_append_of_ne_nil (runs_ne_nil a), List.dropLast_append_of_ne_nil (by simp),
    List.dropLast_append_of_ne_nil (runs_ne_nil b)]
  simp

theorem cutAt?_fenced_eq_none {w s : List Char} (hw : ' ' ∉ w)
    (hs : w ∉ (runs s).dropLast) : cutAt? (fenced w) s = none := by
  refine cutAt?_fenced_eq_none_of_tail hw fun hmem => hs ?_
  rw [← List.tail_dropLast] at hmem
  exact List.mem_of_mem_tail hmem

end TestScaffold.Text
