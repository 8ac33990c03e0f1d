import TestScaffold.Proofs.Declaration.Peel
import TestScaffold.Proofs.Declaration.Written
/-!
# Modifiers in front of a declaration

Classes, constructors and methods are declared with modifiers in front: a list of
symbol keywords with a space behind each. Put in front of a written text they leave
it written, free of slashes and beginning plainly, and they are what is peeled off
it again (`peel_modifiers`).
-/

namespace TestScaffold.Declaration

open Scan Text

theorem isVocabulary_symbolKeywords : IsVocabulary symbolKeywords := by decide

/-- No modifier holds a bracket or a slash. -/
theorem plain_of_mem_symbolKeywords : ∀ w ∈ symbolKeywords,
    '/' ∉ w.toList ∧ ∀ c ∈ w.toList, isBracket c = false := by
  decide

theorem written_of_mem_symbolKeywords : ∀ w ∈ symbolKeywords, Written w.toList := by
  have hsolid : ∀ w ∈ symbolKeywords, w.toList ≠ []
      ∧ ∀ c ∈ w.toList, isBlank c = false ∧ c ≠ '(' ∧ c ≠ '[' := by decide
  exact fun w hw => .of_solid (hsolid w hw).1 (hsolid w hw).2

section Front

variable {keywords : Option (List String)} {s : List Char}

/-- **Modifiers leave a written text written.** -/
theorem AreModifiers.written_append (h : AreModifiers symbolKeywords keywords)
    (hs : Written s) : Written (wordChars (keywords.getD []) ++ s) := by
  rw [← intercalate_words]
  refine .intercalate (by simp) ?_
  rw [List.forall_mem_append, List.forall_mem_map, List.forall_mem_singleton]
  exact ⟨fun w hw => written_of_mem_symbolKeywords w (h.subset hw), hs⟩

theorem AreModifiers.slash_notMem_append (h : AreModifiers symbolKeywords keywords)
    (hs : '/' ∉ s) : '/' ∉ wordChars (keywords.getD []) ++ s := by
  rw [List.mem_append, not_or, wordChars]
  refine ⟨fun hmem => ?_, hs⟩
  obtain ⟨w, hw, hslash⟩ := List.mem_flatMap.mp hmem
  rw [List.mem_append, List.mem_singleton] at hslash
  exact (plain_of_mem_symbolKeywords w (h.subset hw)).1 (hslash.resolve_right (by decide))

theorem AreModifiers.beginsPlainly_append (h : AreModifiers symbolKeywords keywords)
    (hs : BeginsPlainly s) : BeginsPlainly (wordChars (keywords.getD []) ++ s) :=
  beginsPlainly_wordChars_append (fun w hw => isVocabulary_symbolKeywords w (h.subset hw))
    (fun w hw => (plain_of_mem_symbolKeywords w (h.subset hw)).2) hs

/-- **Attributes and modifiers of a declaration without attributes**: the modifiers
are peeled off, and what stands behind them is left. -/
theorem peel_modifiers (h : AreModifiers symbolKeywords keywords) (hs : Text.trim s = s)
    (hplain : BeginsPlainly s) (hlead : leadingWord? symbolKeywords s = none) :
    peelAttributes (Text.trim (wordChars (keywords.getD []) ++ s))
        = ⟨wordChars (keywords.getD []) ++ s, none⟩
      ∧ peelKeywords symbolKeywords (wordChars (keywords.getD []) ++ s) = ⟨s, keywords⟩ := by
  have htrim := trim_wordChars_append
    (fun w hw => isVocabulary_symbolKeywords w (h.subset hw)) hs hplain.ne_nil
  refine ⟨?_, peelKeywords_eq isVocabulary_symbolKeywords h hs hplain.ne_nil hlead⟩
  rw [htrim, peelAttributes_of_plain (h.beginsPlainly_append hplain) htrim]

end Front

end TestScaffold.Declaration
