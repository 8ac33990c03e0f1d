import TestScaffold.Proofs.Declaration.Peel
/-!
# What peeling keywords takes

Keywords are looked for in a vocabulary, and nothing is asked of its words: one may be
empty, begin another one or hold spaces and other blanks. So of several words that lead a
text the first one of the vocabulary counts, and a longer one behind it is never seen.

What is peeled off is said by `InFront`: the words in front of a rest, each of them the
first one that leads there, with a space and perhaps more blanks behind it. A trimmed text
can be put together in one way only of such words and a rest that no word leads, and that is
how it is peeled (`peelWords_eq_iff`). An empty word, or one that begins with a blank, is no
special case, for no trimmed text is led by one.
-/

namespace TestScaffold.Declaration

open Text

/-- **The word of a vocabulary that leads a text**: it stands there with a space behind it,
and no word before it in the vocabulary does. -/
def IsFirst (vocabulary : List String) (w : String) (s : List Char) : Prop :=
  w.toList ++ [' '] <+: s ∧ ∃ before behind, vocabulary = before ++ w :: behind
    ∧ ∀ v ∈ before, ¬ v.toList ++ [' '] <+: s

/-- **The words in front of a rest**: each of them leads what stands there, and has all the
blanks that stand behind its space. -/
inductive InFront (vocabulary : List String) (rest : List Char) : List String → List Char → Prop
  /-- No word. -/
  | nil : InFront vocabulary rest [] rest
  /-- A word with the blanks behind it. -/
  | cons {w : String} {words : List String} {blanks s : List Char}
      (hw : IsFirst vocabulary w (w.toList ++ ' ' :: (blanks ++ s)))
      (hblanks : isBlankText blanks = true) (htrim : trim s = s)
      (hs : InFront vocabulary rest words s) :
      InFront vocabulary rest (w :: words) (w.toList ++ ' ' :: (blanks ++ s))

section Keywords

variable {vocabulary words : List String} {w : String} {s rest after : List Char}

theorem IsFirst.mem (h : IsFirst vocabulary w s) : w ∈ vocabulary := by
  obtain ⟨-, before, behind, rfl, -⟩ := h
  simp

namespace InFront

theorem subset (h : InFront vocabulary rest words s) : words ⊆ vocabulary := by
  induction h with
  | nil => exact List.nil_subset _
  | cons hw _ _ _ ih => exact List.cons_subset.mpr ⟨hw.mem, ih⟩

theorem trim_eq (h : InFront vocabulary rest words s) (hs : trim s = s) : trim rest = rest := by
  induction h with
  | nil => exact hs
  | cons _ _ htrim _ ih => exact ih htrim

end InFront

/-- What is found is the first word that leads the text, and what stands behind its space. -/
theorem leadingWord?_eq_some_iff :
    leadingWord? vocabulary s = some (w, after) ↔
      s = w.toList ++ ' ' :: after ∧ IsFirst vocabulary w s := by
  have hfound : ∀ v : String, (stripStart? (v.toList ++ [' ']) s).map (v, ·) = some (w, after) ↔
      v = w ∧ s = w.toList ++ ' ' :: after := by
    intro v
    simp only [Option.map_eq_some_iff, stripStart?_eq_some_iff, Prod.mk.injEq,
      List.append_assoc, List.singleton_append]
    constructor
    · rintro ⟨t, hs, rfl, rfl⟩
      exact ⟨rfl, hs⟩
    · rintro ⟨rfl, hs⟩
      exact ⟨after, hs, rfl, rfl⟩
  have hnot : ∀ v : String, (stripStart? (v.toList ++ [' ']) s).map (v, ·) = none ↔
      ¬ v.toList ++ [' '] <+: s := fun v => by
    rw [Option.map_eq_none_iff, stripStart?_eq_none_iff]
  rw [leadingWord?, List.findSome?_eq_some_iff]
  simp only [hfound, hnot]
  constructor
  · rintro ⟨before, v, behind, hv, ⟨rfl, hs⟩, hbefore⟩
    exact ⟨hs, ⟨after, by rw [hs]; simp⟩, before, behind, hv, hbefore⟩
  · rintro ⟨hs, -, before, behind, hv, hbefore⟩
    exact ⟨before, w, behind, hv, ⟨rfl, hs⟩, hbefore⟩

theorem peelWords_of_eq_none (h : leadingWord? vocabulary s = none) :
    peelWords vocabulary s = ([], s) := by
  rw [peelWords]
  split
  · next hsome => exact absurd (h.symm.trans hsome) (by simp)
  · rfl

theorem peelWords_of_eq_some (h : leadingWord? vocabulary s = some (w, after)) :
    peelWords vocabulary s
      = (w :: (peelWords vocabulary (trim after)).1, (peelWords vocabulary (trim after)).2) := by
  rw [peelWords]
  split
  · next hsome =>
    obtain ⟨rfl, rfl⟩ := Prod.mk.inj (Option.some.inj (h.symm.trans hsome))
    rfl
  · next hnone => exact absurd (h.symm.trans hnone) (by simp)

/-- Words in front of a rest that no word leads are peeled off. -/
theorem InFront.peelWords_eq (h : InFront vocabulary rest words s)
    (hrest : leadingWord? vocabulary rest = none) : peelWords vocabulary s = (words, rest) := by
  induction h with
  | nil => exact peelWords_of_eq_none hrest
  | cons hw hblanks htrim _ ih =>
    rw [peelWords_of_eq_some (leadingWord?_eq_some_iff.mpr ⟨rfl, hw⟩), trim_blank_append hblanks,
      htrim, ih]

/-- What is peeled off a trimmed text stands in front of a rest that no word leads. -/
theorem inFront_peelWords (vocabulary : List String) {s : List Char} (hs : trim s = s) :
    InFront vocabulary (peelWords vocabulary s).2 (peelWords vocabulary s).1 s
      ∧ leadingWord? vocabulary (peelWords vocabulary s).2 = none := by
  fun_induction peelWords vocabulary s with
  | case1 s w after hlead words rest hpeel ih =>
    obtain ⟨rfl, hfirst⟩ := leadingWord?_eq_some_iff.mp hlead
    have hshape : w.toList ++ ' ' :: after = (w.toList ++ [' ']) ++ after := by simp
    -- the text ends as it did before, so trimming takes no more than the blanks behind the word
    obtain ⟨blanks, hblanks, hafter⟩ := exists_eq_append_trim_of_trim (hshape ▸ hs)
    rw [hpeel] at ih
    obtain ⟨hfront, hrest⟩ := ih (trim_trim after)
    rw [hafter] at hfirst ⊢
    exact ⟨.cons hfirst hblanks (trim_trim after) hfront, hrest⟩
  | case2 s hlead => exact ⟨.nil, hlead⟩

/-- **A trimmed text is peeled in the one way there is**: into words that stand in front of
a rest which no word leads. -/
theorem peelWords_eq_iff (hs : trim s = s) :
    peelWords vocabulary s = (words, rest) ↔
      InFront vocabulary rest words s ∧ leadingWord? vocabulary rest = none := by
  refine ⟨fun h => ?_, fun ⟨hfront, hrest⟩ => hfront.peelWords_eq hrest⟩
  have hpeeled := inFront_peelWords vocabulary hs
  rwa [h] at hpeeled

/-- **Peeling keywords is exact for any vocabulary.** What is found are words of it, and
never the empty list of them. The found words, each with a space and perhaps more blanks
behind it, stand in the trimmed text in front of what is left. That is trimmed and no word
with a space leads it, so peeling it again finds nothing and leaves it as it is. -/
theorem peelKeywords_exact (vocabulary : List String) (text : List Char) :
    ∃ words rest, peelKeywords vocabulary text = ⟨rest, if words = [] then none else some words⟩
      ∧ words ⊆ vocabulary ∧ InFront vocabulary rest words (trim text)
      ∧ trim rest = rest ∧ (∀ w ∈ vocabulary, ¬ w.toList ++ [' '] <+: rest)
      ∧ peelKeywords vocabulary rest = ⟨rest, none⟩ := by
  generalize hpeel : peelWords vocabulary (trim text) = peeled
  obtain ⟨words, rest⟩ := peeled
  obtain ⟨hfront, hnone⟩ := (peelWords_eq_iff (trim_trim text)).mp hpeel
  have htrim := hfront.trim_eq (trim_trim text)
  refine ⟨words, rest, ?_, hfront.subset, hfront, htrim, leadingWord?_eq_none_iff.mp hnone, ?_⟩
  · simp only [peelKeywords, hpeel, nonEmpty?, List.isEmpty_iff]
  · have hagain := (peelWords_eq_iff htrim).mpr ⟨.nil, hnone⟩
    simp only [peelKeywords, htrim, hagain, nonEmpty?, List.isEmpty_nil, if_true]

/-- A longer word of the vocabulary is not seen behind one that begins it. -/
example : peelKeywords ["", "new", "new async"] " new \t new async Run".toList
    = ⟨"async Run".toList, some ["new", "new"]⟩ := by decide +kernel

end Keywords

end TestScaffold.Declaration
