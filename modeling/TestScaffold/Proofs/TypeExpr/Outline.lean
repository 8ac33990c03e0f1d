import TestScaffold.Proofs.Scan.Depth
import TestScaffold.TypeExpr.Parser
import Mathlib.Data.List.Induction
/-!
# What the outline of a type text takes out

`Outline.read` answers for any text, however its brackets are mixed. Its parts
are said here of the text alone: what ends the name (`EndsName`), which
characters are marks (`IsMark`), what stands behind the last mark (`IsTail`), an
argument list (`IsArgumentList`) and the name (`IsName`).

All of them speak of a character and of the text in front of it, for the reader
never looks ahead. So each is proved for a text from the text without its last
character: one step of the reader is `Outline.Steps`, part by part, and every
part of an outline follows by one induction from the end.

Two of these notions are less than they look. The three bracket kinds share one
depth, so a `>` may well close a parenthesis, and then what it ends is an
argument list all the same. And the name of a text is not always in front of its
first mark: a text that begins with a mark takes its name from its tail.
-/

namespace TestScaffold.TypeExpr

open Scan Text

namespace Outline

theorem read_concat (s : List Char) (c : Char) : read (s ++ [c]) = (read s).step c := by
  rw [read, List.foldl_append]
  rfl

/-- **What one character does to an outline**, part by part. -/
structure Steps (o : Outline) (c : Char) (next : Outline) : Prop where
  /-- Brackets count, whatever their kind. -/
  depth : next.depth = depthAfter o.depth c
  /-- A rank ends with its bracket. -/
  afterRank : next.afterRank = true ↔ c = ']' ∧ o.depth ≤ 1
  /-- An argument list ends with its bracket and is what was read since the last mark. -/
  arguments : next.arguments
    = if c = '>' ∧ o.depth ≤ 1 then o.arguments ++ [o.pending] else o.arguments
  /-- The first character that ends the name ends it, for good. -/
  name : next.name
    = if o.name = none ∧ o.depth = 0 ∧ (c = '<' ∨ c = '[' ∨ (c = '?' ∧ o.afterRank = false)) then
        some (trim o.pending)
      else o.name
  /-- What is read goes to the text since the last mark, unless it is a mark itself. -/
  pending : next.pending
    = if (o.depth ≤ 1 ∧ (c = '>' ∨ c = ']'))
        ∨ (o.depth = 0 ∧ (c = '<' ∨ c = '?' ∨ (c = '[' ∧ o.name = none))) then []
      else o.pending ++ [c]

/-- Nothing stands between a rank and what follows it. -/
def Settled (o : Outline) : Prop :=
  o.afterRank = true → o.depth = 0 ∧ o.pending = []

theorem steps_step {o : Outline} (h : o.Settled) (c : Char) : o.Steps c (o.step c) := by
  obtain ⟨depth, name, pending, arguments, ranks, nullable, afterRank⟩ := o
  by_cases hlt : c = '<'
  · subst hlt
    by_cases hd : depth = 0
    · cases name <;> constructor <;> simp [step, named, hd, depthAfter, isOpening]
    · constructor <;> simp [step, keep, hd, depthAfter, isOpening]
  by_cases hgt : c = '>'
  · subst hgt
    by_cases hd : depth ≤ 1
    · constructor <;> simp [step, hd, depthAfter, isOpening, isClosing]
    · constructor <;> simp [step, keep, hd, depthAfter, isOpening, isClosing]
  by_cases hopen : c = '['
  · subst hopen
    by_cases hd : depth = 0
    · cases name <;> constructor <;> simp [step, named, keep, hd, depthAfter, isOpening]
    · constructor <;> simp [step, keep, hd, depthAfter, isOpening]
  by_cases hclose : c = ']'
  · subst hclose
    by_cases hd : depth ≤ 1
    · constructor <;> simp [step, hd, depthAfter, isOpening, isClosing]
    · constructor <;> simp [step, keep, hd, depthAfter, isOpening, isClosing]
  by_cases hmark : c = '?'
  · subst hmark
    cases afterRank with
    | true =>
      obtain ⟨rfl, rfl⟩ : depth = 0 ∧ pending = [] := h rfl
      constructor <;> simp [step, depthAfter, isOpening, isClosing]
    | false =>
      by_cases hd : depth = 0
      · cases name <;> constructor <;> simp [step, named, hd, depthAfter, isOpening, isClosing]
      · constructor <;> simp [step, keep, hd, depthAfter, isOpening, isClosing]
  -- any other character is kept, and the two parentheses count
  constructor
  all_goals
    by_cases hleft : c = '('
    · simp [step, keep, hleft, depthAfter, isOpening]
    · by_cases hright : c = ')'
      · simp [step, keep, hright, depthAfter, isOpening, isClosing]
      · simp [step, keep, depthAfter, isOpening, isClosing, hlt, hgt, hopen, hclose, hmark, hleft,
          hright]

theorem Steps.settled {o next : Outline} {c : Char} (h : o.Steps c next) : next.Settled := by
  intro hrank
  obtain ⟨rfl, hdepth⟩ := h.afterRank.mp hrank
  rw [h.depth, h.pending, if_pos (.inl ⟨hdepth, .inr rfl⟩)]
  exact ⟨Nat.sub_eq_zero_of_le hdepth, rfl⟩

theorem settled_read (s : List Char) : (read s).Settled := by
  induction s using List.reverseRecOn with
  | nil => exact fun h => Bool.noConfusion h
  | append_singleton s c ih =>
    rw [read_concat]
    exact (steps_step ih c).settled

/-- The outline of a text and of the text with one more character. -/
theorem steps_read (s : List Char) (c : Char) : (read s).Steps c (read (s ++ [c])) := by
  rw [read_concat]
  exact steps_step (settled_read s) c

theorem depth_read (s : List Char) : (read s).depth = depthBehind s := by
  induction s using List.reverseRecOn with
  | nil => rfl
  | append_singleton s c ih => rw [(steps_read s c).depth, ih, depthBehind_concat]

end Outline

/-! ## Marks -/

/-- An array rank ends a text: its last character is a `]` that closes at the outer level. -/
def EndsRank (s : List Char) : Prop :=
  ∃ x, s = x ++ [']'] ∧ depthBehind x ≤ 1

/-- **The characters that end the name** in a type text: `<`, `[` and `?` outside brackets, but
for the `?` of an array rank. -/
def EndsName (front : List Char) (c : Char) : Prop :=
  depthBehind front = 0 ∧ (c = '<' ∨ c = '[' ∨ (c = '?' ∧ ¬ EndsRank front))

/-- The name has ended within a text. -/
def HasName (s : List Char) : Prop :=
  ∃ x c y, s = x ++ c :: y ∧ EndsName x c

/-- **The marks of a type text**: an angle or square bracket that closes at the outer level, and
outside brackets a `<`, a `?` and the `[` that ends the name. -/
def IsMark (front : List Char) (c : Char) : Prop :=
  (depthBehind front ≤ 1 ∧ (c = '>' ∨ c = ']'))
    ∨ (depthBehind front = 0 ∧ (c = '<' ∨ c = '?' ∨ (c = '[' ∧ ¬ HasName front)))

/-- **The tail of a text**: what stands behind its last mark. -/
def IsTail (s tail : List Char) : Prop :=
  ∃ front, s = front ++ tail ∧ (∀ x c, front = x ++ [c] → IsMark x c)
    ∧ ∀ x c y, tail = x ++ c :: y → ¬ IsMark (front ++ x) c

/-- **An argument list of a type text**: what stands between a mark and the next `>` that closes at
the outer level. -/
def IsArgumentList (s arguments : List Char) : Prop :=
  ∃ x y, s = x ++ '>' :: y ∧ depthBehind x ≤ 1 ∧ IsTail x arguments

/-- **The name of a type text**: what stands in front of the first character that ends the name,
and what stands behind the last mark when the name has not ended or is blank. -/
inductive IsName (s : List Char) : List Char → Prop
  | ended {x tail y : List Char} {c : Char} (hs : s = x ++ c :: y) (hc : EndsName x c)
      (hfirst : ¬ HasName x) (htail : IsTail x tail) (hne : trim tail ≠ []) :
      IsName s (trim tail)
  | behind {tail : List Char} (htail : IsTail s tail)
      (hblank : ∀ x c y, s = x ++ c :: y → EndsName x c → ¬ HasName x →
        ∀ front, IsTail x front → trim front = []) :
      IsName s (trim tail)

theorem endsRank_concat_iff {s : List Char} {c : Char} :
    EndsRank (s ++ [c]) ↔ c = ']' ∧ depthBehind s ≤ 1 := by
  constructor
  · rintro ⟨x, heq, hx⟩
    obtain ⟨rfl, hc⟩ := List.append_inj' heq rfl
    exact ⟨List.singleton_inj.mp hc, hx⟩
  · rintro ⟨rfl, h⟩
    exact ⟨s, rfl, h⟩

/-- Where a text with one more character can be cut in front of a character. -/
theorem concat_eq_append_cons_iff {s x y : List Char} {c d : Char} :
    s ++ [c] = x ++ d :: y ↔ (s = x ∧ c = d ∧ y = []) ∨ ∃ z, y = z ++ [c] ∧ s = x ++ d :: z := by
  constructor
  · intro h
    rcases List.eq_nil_or_concat y with rfl | ⟨z, e, rfl⟩
    · obtain ⟨rfl, hc⟩ := List.append_inj' h rfl
      exact .inl ⟨rfl, List.singleton_inj.mp hc, rfl⟩
    · rw [List.concat_eq_append, ← List.cons_append, ← List.append_assoc] at h
      obtain ⟨rfl, hc⟩ := List.append_inj' h rfl
      obtain rfl := List.singleton_inj.mp hc
      exact .inr ⟨z, List.concat_eq_append, rfl⟩
  · rintro (⟨rfl, rfl, rfl⟩ | ⟨z, rfl, rfl⟩)
    · rfl
    · simp

/-- A character with a property of what stands in front of it is the last character of a text, or
it stands in the text without that. -/
theorem exists_concat_iff {P : List Char → Char → Prop} {s : List Char} {c : Char} :
    (∃ x d y, s ++ [c] = x ++ d :: y ∧ P x d) ↔ (∃ x d y, s = x ++ d :: y ∧ P x d) ∨ P s c := by
  simp only [concat_eq_append_cons_iff]
  constructor
  · rintro ⟨x, d, y, ⟨rfl, rfl, rfl⟩ | ⟨z, rfl, rfl⟩, h⟩
    · exact .inr h
    · exact .inl ⟨x, d, z, rfl, h⟩
  · rintro (⟨x, d, y, rfl, h⟩ | h)
    · exact ⟨x, d, y ++ [c], .inr ⟨y, rfl, rfl⟩, h⟩
    · exact ⟨s, c, [], .inl ⟨rfl, rfl, rfl⟩, h⟩

theorem hasName_concat_iff {s : List Char} {c : Char} :
    HasName (s ++ [c]) ↔ HasName s ∨ EndsName s c :=
  exists_concat_iff

theorem isArgumentList_iff {s arguments : List Char} :
    IsArgumentList s arguments ↔ ∃ x c y, s = x ++ c :: y
      ∧ (c = '>' ∧ depthBehind x ≤ 1 ∧ IsTail x arguments) := by
  constructor
  · rintro ⟨x, y, rfl, h⟩
    exact ⟨x, '>', y, rfl, rfl, h⟩
  · rintro ⟨x, _, y, rfl, rfl, h⟩
    exact ⟨x, y, rfl, h⟩

theorem isTail_nil_iff {tail : List Char} : IsTail [] tail ↔ tail = [] := by
  constructor
  · rintro ⟨front, h, -⟩
    exact (List.append_eq_nil_iff.mp h.symm).2
  · rintro rfl
    exact ⟨[], rfl, by simp, by simp⟩

theorem isTail_concat_iff {s tail : List Char} {c : Char} :
    IsTail (s ++ [c]) tail ↔
      (IsMark s c ∧ tail = []) ∨ (¬ IsMark s c ∧ ∃ t, tail = t ++ [c] ∧ IsTail s t) := by
  constructor
  · rintro ⟨front, heq, hfront, htail⟩
    rcases List.eq_nil_or_concat tail with rfl | ⟨t, d, rfl⟩
    · exact .inl ⟨hfront s c (by simpa using heq.symm), rfl⟩
    · rw [List.concat_eq_append] at heq htail ⊢
      rw [← List.append_assoc] at heq
      obtain ⟨rfl, hc⟩ := List.append_inj' heq rfl
      obtain rfl := List.singleton_inj.mp hc
      refine .inr ⟨htail t c [] rfl, t, rfl, front, rfl, hfront, fun x d y ht => ?_⟩
      exact htail x d (y ++ [c]) (by rw [ht, List.append_assoc, List.cons_append])
  · rintro (⟨hmark, rfl⟩ | ⟨hmark, t, rfl, front, rfl, hfront, htail⟩)
    · refine ⟨s ++ [c], (List.append_nil _).symm, fun x d heq => ?_, by simp⟩
      obtain ⟨rfl, hd⟩ := List.append_inj' heq rfl
      exact List.singleton_inj.mp hd ▸ hmark
    · refine ⟨front, List.append_assoc .., hfront, fun x d y heq => ?_⟩
      rcases concat_eq_append_cons_iff.mp heq with ⟨rfl, rfl, -⟩ | ⟨z, -, rfl⟩
      · exact hmark
      · exact htail x d z rfl

/-! ## The outline by the marks -/

namespace Outline

theorem afterRank_read_iff (s : List Char) : (read s).afterRank = true ↔ EndsRank s := by
  cases s using List.reverseRecOn with
  | nil =>
    refine ⟨fun h => Bool.noConfusion h, ?_⟩
    rintro ⟨x, h, -⟩
    exact absurd h (by simp)
  | append_singleton s c => rw [(steps_read s c).afterRank, endsRank_concat_iff, depth_read]

theorem endsName_iff {s : List Char} {c : Char} :
    EndsName s c ↔
      (read s).depth = 0 ∧ (c = '<' ∨ c = '[' ∨ (c = '?' ∧ (read s).afterRank = false)) := by
  rw [EndsName, depth_read, ← afterRank_read_iff, Bool.not_eq_true]

theorem name_read_eq_none_iff (s : List Char) : (read s).name = none ↔ ¬ HasName s := by
  induction s using List.reverseRecOn with
  | nil => exact ⟨fun _ ⟨x, c, y, h, _⟩ => absurd h (by simp), fun _ => rfl⟩
  | append_singleton s c ih =>
    rw [(steps_read s c).name, hasName_concat_iff, endsName_iff, not_or, ← ih]
    split
    · next h => simp [h.1, h.2]
    · next h => exact ⟨fun hnone => ⟨hnone, fun hends => h ⟨hnone, hends⟩⟩, And.left⟩

theorem isMark_iff {s : List Char} {c : Char} :
    IsMark s c ↔ ((read s).depth ≤ 1 ∧ (c = '>' ∨ c = ']'))
      ∨ ((read s).depth = 0 ∧ (c = '<' ∨ c = '?' ∨ (c = '[' ∧ (read s).name = none))) := by
  rw [IsMark, depth_read, name_read_eq_none_iff]

/-- **What was read since the last mark** is the tail of the text. -/
theorem isTail_iff {s tail : List Char} : IsTail s tail ↔ (read s).pending = tail := by
  induction s using List.reverseRecOn generalizing tail with
  | nil => rw [isTail_nil_iff]; exact eq_comm
  | append_singleton s c ih =>
    rw [isTail_concat_iff, (steps_read s c).pending, isMark_iff]
    split
    · next h =>
      simp only [h, true_and, not_true_eq_false, false_and, or_false]
      exact eq_comm
    · next h =>
      simp only [h, false_and, false_or, not_false_eq_true, true_and, ih]
      exact ⟨fun ⟨_, ht, hs⟩ => by rw [ht, hs], fun h => ⟨_, h.symm, rfl⟩⟩

/-- **The argument lists** of an outline are those of the text. -/
theorem mem_arguments_iff {s arguments : List Char} :
    arguments ∈ (read s).arguments ↔ IsArgumentList s arguments := by
  induction s using List.reverseRecOn with
  | nil =>
    refine ⟨fun h => absurd h List.not_mem_nil, ?_⟩
    rintro ⟨x, y, h, -⟩
    exact absurd h (by simp)
  | append_singleton s c ih =>
    rw [isArgumentList_iff, exists_concat_iff, ← isArgumentList_iff, ← ih, isTail_iff,
      (steps_read s c).arguments, depth_read]
    split
    · next h => simp [h.1, h.2, eq_comm]
    · next h =>
      refine ⟨Or.inl, ?_⟩
      rintro (h' | ⟨hc, hdepth, -⟩)
      · exact h'
      · exact absurd ⟨hc, hdepth⟩ h

/-- The name that has ended is what was read in front of the first character that ends one. -/
theorem name_read_eq_some_iff {s name : List Char} :
    (read s).name = some name ↔ ∃ x c y, s = x ++ c :: y ∧ EndsName x c ∧ ¬ HasName x
      ∧ trim (read x).pending = name := by
  induction s using List.reverseRecOn with
  | nil =>
    refine ⟨fun h => absurd h (by simp [read]), ?_⟩
    rintro ⟨x, c, y, h, -⟩
    exact absurd h (by simp)
  | append_singleton s c ih =>
    rw [exists_concat_iff, ← ih, (steps_read s c).name]
    have hnone := name_read_eq_none_iff s
    split
    · next h =>
      rw [h.1]
      simp [endsName_iff, h.2, hnone.mp h.1]
    · next h =>
      refine ⟨Or.inl, ?_⟩
      rintro (h' | ⟨hends, hfirst, -⟩)
      · exact h'
      · exact absurd ⟨hnone.mpr hfirst, endsName_iff.mp hends⟩ h

theorem nameText_eq_of_name {o : Outline} {name : List Char} (h : o.name = some name)
    (hne : name ≠ []) : o.nameText = name := by
  cases name with
  | nil => exact absurd rfl hne
  | cons c name => rw [nameText, h]

theorem nameText_eq_of_blank {o : Outline} (h : o.name = none ∨ o.name = some []) :
    o.nameText = trim o.pending := by
  rcases h with h | h <;> rw [nameText, h]

/-- **The text that names the type** is the name of the text. -/
theorem isName_iff {s name : List Char} : IsName s name ↔ (read s).nameText = name := by
  constructor
  · rintro (⟨rfl, hc, hfirst, htail, hne⟩ | ⟨htail, hblank⟩)
    · have htail' := congrArg trim (isTail_iff.mp htail)
      exact nameText_eq_of_name (name_read_eq_some_iff.mpr ⟨_, _, _, rfl, hc, hfirst, htail'⟩) hne
    · rw [← isTail_iff.mp htail]
      refine nameText_eq_of_blank ?_
      cases hname : (read s).name with
      | none => exact .inl rfl
      | some name =>
        obtain ⟨x, c, y, hs, hc, hfirst, rfl⟩ := name_read_eq_some_iff.mp hname
        exact .inr (congrArg some (hblank x c y hs hc hfirst _ (isTail_iff.mpr rfl)))
  · rintro rfl
    cases hname : (read s).name with
    | none =>
      rw [nameText_eq_of_blank (.inl hname)]
      refine .behind (isTail_iff.mpr rfl) fun x c y hs hc _ => ?_
      exact absurd ⟨x, c, y, hs, hc⟩ ((name_read_eq_none_iff s).mp hname)
    | some name =>
      by_cases hne : name = []
      · subst hne
        rw [nameText_eq_of_blank (.inr hname)]
        refine .behind (isTail_iff.mpr rfl) fun x c y hs hc hfirst front htail => ?_
        have hsome := name_read_eq_some_iff.mpr ⟨x, c, y, hs, hc, hfirst, rfl⟩
        rw [← isTail_iff.mp htail]
        exact Option.some.inj (hsome.symm.trans hname)
      · rw [nameText_eq_of_name hname hne]
        obtain ⟨x, c, y, hs, hc, hfirst, rfl⟩ := name_read_eq_some_iff.mp hname
        exact .ended hs hc hfirst (isTail_iff.mpr rfl) hne

end Outline

end TestScaffold.TypeExpr
