import TestScaffold.Declaration.Signature
import TestScaffold.Proofs.Scan.Bracket
import TestScaffold.Proofs.Text.Spacing
/-!
# What the display name of a class keeps

The display name is the signature of a class without its qualification and without the
parameter list of a primary constructor. The qualification goes whatever stands behind
the name (`classDisplayName_append`). The parameter list is not looked for behind the name,
though: what goes is the first group of parentheses outside brackets, wherever it stands
(`withoutGroup`). When no parameter list follows the name, that group belongs to what does:
`Box<T> where T : new()` is displayed as `Box<T> where T : new`, and the arguments that a base
list hands to its base class go, too.

So the tail of a signature is kept exactly when every parenthesis that opens in it stands
inside another bracket, such as the tuple of `IPair<(int, T)>`. A group that goes takes at
least its parenthesis along, which is no blank, so normalising does not make up for it.
-/

namespace TestScaffold.Declaration

open Scan Text

/-! ## Qualified names -/

/-- **A part of a qualified name**, such as an identifier: a word without blanks, brackets, quotes,
colons and full stops. -/
structure IsNamePart (s : List Char) : Prop where
  /-- It holds something. -/
  ne : s ≠ []
  /-- It holds nothing that the readers of a signature look for. -/
  plain : ∀ c ∈ s, isBracket c = false ∧ isQuote c = false ∧ isBlank c = false ∧ c ≠ ':' ∧ c ≠ '.'

instance : DecidablePred IsNamePart := fun s =>
  decidable_of_iff (s ≠ [] ∧ ∀ c ∈ s, isBracket c = false ∧ isQuote c = false
      ∧ isBlank c = false ∧ c ≠ ':' ∧ c ≠ '.')
    ⟨fun h => ⟨h.1, h.2⟩, fun h => ⟨h.ne, h.plain⟩⟩

/-- A name behind the namespaces it is qualified with. -/
def qualifiedName (path : List (List Char)) (name : List Char) : List Char :=
  List.intercalate ['.'] (path ++ [name])

@[simp] theorem qualifiedName_nil (name : List Char) : qualifiedName [] name = name :=
  List.intercalate_singleton

theorem qualifiedName_eq (path : List (List Char)) (name : List Char) :
    qualifiedName path name = path.flatMap (· ++ ['.']) ++ name := by
  rw [qualifiedName, intercalate_append (List.cons_ne_nil _ _), List.intercalate_singleton]

theorem qualifiedName_of_ne_nil {path : List (List Char)} (hne : path ≠ []) (name : List Char) :
    qualifiedName path name = List.intercalate ['.'] path ++ '.' :: name := by
  rw [qualifiedName_eq, ← intercalate_append_sep hne, List.append_assoc, List.singleton_append]

/-- The name token of a signature ends at the first bracket, space or colon behind it. -/
theorem className_append {front rest : List Char}
    (hfront : ∀ c ∈ front, isBracket c = false ∧ isBlank c = false ∧ c ≠ ':')
    (hrest : ∀ c ∈ rest.head?, c = '<' ∨ c = '(' ∨ c = ' ' ∨ c = ':') :
    className (front ++ rest) = front := by
  have hmark : ∀ c ∈ front, (!(c == '<' || c == '(' || c == ' ' || c == ':')) = true := by
    intro c hc
    obtain ⟨hbracket, hblank, hcolon⟩ := hfront c hc
    rw [Bool.not_eq_true', Bool.eq_false_iff]
    intro hend
    simp only [Bool.or_eq_true, beq_iff_eq] at hend
    rcases hend with ((rfl | rfl) | rfl) | rfl
    · exact absurd hbracket (by decide)
    · exact absurd hbracket (by decide)
    · exact absurd hblank (by decide)
    · exact hcolon rfl
  have hstop : rest.takeWhile (fun c => !(c == '<' || c == '(' || c == ' ' || c == ':')) = [] := by
    cases rest with
    | nil => rfl
    | cons c rest => rcases hrest c rfl with rfl | rfl | rfl | rfl <;> rfl
  rw [className, List.takeWhile_append_of_pos hmark, hstop, List.append_nil]

section Qualified

variable {path : List (List Char)} {name rest : List Char} (hpath : ∀ n ∈ path, IsNamePart n)
include hpath

theorem plain_qualification : ∀ c ∈ path.flatMap (· ++ ['.']),
    isBracket c = false ∧ isQuote c = false ∧ isBlank c = false ∧ c ≠ ':' := by
  intro c hc
  obtain ⟨n, hn, hmem⟩ := List.mem_flatMap.mp hc
  rcases List.mem_append.mp hmem with hmem | hmem
  · obtain ⟨hbracket, hquote, hblank, hcolon, -⟩ := (hpath n hn).plain c hmem
    exact ⟨hbracket, hquote, hblank, hcolon⟩
  · rw [List.mem_singleton.mp hmem]
    decide

variable (hname : IsNamePart name)
include hname

theorem plain_qualifiedName : ∀ c ∈ qualifiedName path name,
    isBracket c = false ∧ isQuote c = false ∧ isBlank c = false ∧ c ≠ ':' := by
  rw [qualifiedName_eq, List.forall_mem_append]
  refine ⟨plain_qualification hpath, fun c hc => ?_⟩
  obtain ⟨hbracket, hquote, hblank, hcolon, -⟩ := hname.plain c hc
  exact ⟨hbracket, hquote, hblank, hcolon⟩

/-- **The qualification ends at the last full stop** of a qualified name. -/
theorem cutLast?_qualifiedName :
    cutLast? '.' (qualifiedName path name)
      = if path = [] then none else some (List.intercalate ['.'] path, name) := by
  have hsegment : Segment '.' name := by
    refine (Quiet.of_plain fun c hc => ?_).segment
    obtain ⟨hbracket, hquote, -, -, hdot⟩ := hname.plain c hc
    exact ⟨hbracket, hquote, hdot⟩
  by_cases hne : path = []
  · rw [if_pos hne, hne, qualifiedName_nil]
    exact cutLast?_segment hsegment
  · have hsettled : (Reader.start.run (List.intercalate ['.'] path)).Settled := by
      refine (Quiet.of_plain (d := ':') fun c hc => ?_).segment.settled
      have hmem : c ∈ qualifiedName path name := by
        rw [qualifiedName_of_ne_nil hne]
        exact List.mem_append_left _ hc
      obtain ⟨hbracket, hquote, -, hcolon⟩ := plain_qualifiedName hpath hname c hmem
      exact ⟨hbracket, hquote, hcolon⟩
    rw [if_neg hne, qualifiedName_of_ne_nil hne, cutLast?_join (by decide) hsettled hsegment]

theorem className_qualifiedName
    (hrest : ∀ c ∈ rest.head?, c = '<' ∨ c = '(' ∨ c = ' ' ∨ c = ':') :
    className (qualifiedName path name ++ rest) = qualifiedName path name := by
  refine className_append (fun c hc => ?_) hrest
  obtain ⟨hbracket, -, hblank, hcolon⟩ := plain_qualifiedName hpath hname c hc
  exact ⟨hbracket, hblank, hcolon⟩

/-- Only what stands behind a qualified name is trimmed. -/
theorem trim_qualifiedName_append (rest : List Char) :
    trim (qualifiedName path name ++ rest) = qualifiedName path name ++ trimEnd rest := by
  refine trim_append_of_trim ?_ ?_ rest
  · rw [qualifiedName_eq]
    simp [hname.ne]
  · refine trim_eq_self_of_solid fun c hc => ?_
    exact (plain_qualifiedName hpath hname c hc).2.2.1

end Qualified

/-! ## The group that is left out -/

/-- A text without its first group of parentheses outside brackets, which leaves a space behind. -/
def withoutGroup (s : List Char) : List Char :=
  match cutAtOpen? '(' s with
  | some (head, rest) =>
    match cutAtClose? 1 rest with
    | some (_, tail) => normalize (head ++ ' ' :: tail)
    | none => normalize head
  | none => s

theorem withoutGroup_of_none {s : List Char} (h : cutAtOpen? '(' s = none) :
    withoutGroup s = s := by
  rw [withoutGroup, h]

/-- **A group that is left out is missed**: at least its parenthesis was no blank. -/
theorem length_ink_withoutGroup {s head rest : List Char}
    (h : cutAtOpen? '(' s = some (head, rest)) :
    (ink (withoutGroup s)).length < (ink s).length := by
  obtain ⟨rfl, -, -⟩ := of_cutAtOpenFrom?_eq_some h
  have hspace : isBlank ' ' = true := by decide
  have hparen : isBlank '(' = false := by decide
  rw [withoutGroup, h]
  dsimp only
  rw [ink_append, ink_cons_of_not_blank hparen, List.length_append, List.length_cons]
  split
  · next group tail hclose =>
    obtain ⟨c, -, rfl, -⟩ := of_cutAtClose?_eq_some hclose
    have htail : (ink tail).Sublist (ink (group ++ c :: tail)) :=
      ((List.sublist_cons_self c tail).trans (List.sublist_append_right group _)).filter _
    have := htail.length_le
    rw [ink_normalize, ink_append, ink_cons_of_blank hspace, List.length_append]
    omega
  · rw [ink_normalize]
    omega

/-! ## The display name -/

/-- **The display name is the signature without its qualification**, the end trimmed and the first
group of parentheses left out. -/
theorem classDisplayName_append {path : List (List Char)} (hpath : ∀ n ∈ path, IsNamePart n)
    {name : List Char} (hname : IsNamePart name) {rest : List Char}
    (hrest : ∀ c ∈ rest.head?, c = '<' ∨ c = '(' ∨ c = ' ' ∨ c = ':') :
    classDisplayName (qualifiedName path name ++ rest) = withoutGroup (name ++ trimEnd rest) := by
  have hrest' : ∀ c ∈ (trimEnd rest).head?, c = '<' ∨ c = '(' ∨ c = ' ' ∨ c = ':' := by
    obtain ⟨b, -, hb⟩ := exists_eq_trimEnd_append rest
    exact fun c hc => hrest c (hb ▸ List.mem_head?_append_of_mem_head? hc)
  have hdrop : path ≠ [] → (qualifiedName path name ++ trimEnd rest).drop
      ((List.intercalate ['.'] path).length + 1) = name ++ trimEnd rest := by
    intro hne
    rw [qualifiedName_of_ne_nil hne, List.append_cons, List.append_assoc]
    exact List.drop_left' (by simp)
  unfold classDisplayName
  dsimp only
  rw [trim_qualifiedName_append hpath hname, className_qualifiedName hpath hname hrest',
    cutLast?_qualifiedName hpath hname]
  by_cases hne : path = []
  · rw [if_pos hne, hne, qualifiedName_nil]
    rfl
  · rw [if_neg hne]
    dsimp only
    rw [hdrop hne]
    rfl

/-- The generic parameters behind a name, if there are any. -/
inductive IsGenericList : List Char → Prop
  | none : IsGenericList []
  | angled {inner : List Char} (h : Nested inner) : IsGenericList ('<' :: (inner ++ ['>']))

theorem IsGenericList.skipped {generics : List Char} (h : IsGenericList generics) :
    Skipped '(' generics := by
  cases h with
  | none => exact .nil
  | angled h => exact .group rfl (by decide) h (by decide)

theorem IsNamePart.skipped {name : List Char} (h : IsNamePart name) : Skipped '(' name :=
  .of_plain rfl fun c hc => (h.plain c hc).1

/-- Behind a text that is passed nothing is found when nothing is found at all. -/
theorem cutAtOpen?_skipped_eq_none_iff {a s : List Char} (ha : Skipped '(' a) :
    cutAtOpen? '(' (a ++ s) = none ↔ cutAtOpen? '(' s = none := by
  rw [ha, Option.map_eq_none_iff]

/-- No parenthesis is trimmed away. -/
theorem cutAtOpen?_trimEnd_eq_none_iff {s : List Char} :
    cutAtOpen? '(' (trimEnd s) = none ↔ cutAtOpen? '(' s = none := by
  obtain ⟨b, hb, hs⟩ := exists_eq_trimEnd_append s
  rw [cutAtOpen?_eq_none_iff, cutAtOpen?_eq_none_iff]
  constructor
  · intro h x y heq
    refine h x (trimEnd y) ?_
    rw [heq, trimEnd_append, trimEnd_cons]
    simp [show isBlank '(' = false by decide]
  · intro h x y heq
    exact h x (y ++ b) (by rw [hs, heq, List.append_assoc, List.cons_append])

/-- **The tail of a signature is kept exactly when no parenthesis opens outside brackets in it.**
The display name of a class without a parameter list is its name with the generic parameters
and the whole tail, up to blanks, when every parenthesis that opens in the tail stands inside
another bracket; and otherwise it is not. -/
theorem classDisplayName_keeps_tail_iff {path : List (List Char)}
    (hpath : ∀ n ∈ path, IsNamePart n) {name : List Char} (hname : IsNamePart name)
    {generics : List Char} (hgenerics : IsGenericList generics) {tail : List Char}
    (htail : ∀ c ∈ tail.head?, c = ' ' ∨ c = ':') :
    normalize (classDisplayName (qualifiedName path name ++ (generics ++ tail)))
        = normalize (name ++ (generics ++ tail))
      ↔ ∀ x y, tail = x ++ '(' :: y → depthBehind x ≠ 0 := by
  have hrest : ∀ c ∈ (generics ++ tail).head?, c = '<' ∨ c = '(' ∨ c = ' ' ∨ c = ':' := by
    cases hgenerics with
    | none => exact fun c hc => .inr (.inr (htail c hc))
    | angled => exact fun c hc => .inl (Option.some.inj hc).symm
  obtain ⟨b, hb, htrim⟩ := exists_eq_trimEnd_append (generics ++ tail)
  have htrimmed : normalize (name ++ trimEnd (generics ++ tail))
      = normalize (name ++ (generics ++ tail)) := by
    conv_rhs => rw [htrim, ← List.append_assoc]
    exact (normalize_append_blank _ hb).symm
  -- the name and the generic parameters hold no parenthesis outside brackets
  have hcut : cutAtOpen? '(' (name ++ trimEnd (generics ++ tail)) = none
      ↔ ∀ x y, tail = x ++ '(' :: y → depthBehind x ≠ 0 := by
    rw [cutAtOpen?_skipped_eq_none_iff hname.skipped, cutAtOpen?_trimEnd_eq_none_iff,
      cutAtOpen?_skipped_eq_none_iff hgenerics.skipped, cutAtOpen?_eq_none_iff]
  rw [classDisplayName_append hpath hname hrest, ← htrimmed, ← hcut]
  constructor
  · intro h
    cases hsome : cutAtOpen? '(' (name ++ trimEnd (generics ++ tail)) with
    | none => rfl
    | some cut =>
      have hlost := length_ink_withoutGroup hsome
      rw [← ink_normalize, h, ink_normalize] at hlost
      exact absurd hlost (Nat.lt_irrefl _)
  · intro h
    rw [withoutGroup_of_none h]

/-- The tuple in a type argument of a base stays. -/
theorem classDisplayName_keeps_tail_iff_pairBox :
    normalize (classDisplayName "Shop.Box<T> : IPair<(T, T)>".toList)
      = normalize "Box<T> : IPair<(T, T)>".toList := by
  have hpath : ∀ n ∈ ["Shop".toList], IsNamePart n := by decide
  have hname : IsNamePart "Box".toList := by decide
  have hgenerics : IsGenericList "<T>".toList := .angled (.of_plain (s := ['T']) (by decide))
  have htail : ∀ c ∈ " : IPair<(T, T)>".toList.head?, c = ' ' ∨ c = ':' :=
    fun c hc => .inl (Option.some.inj hc).symm
  have hinside : ∀ x y, " : IPair<(T, T)>".toList = x ++ '(' :: y → depthBehind x ≠ 0 :=
    cutAtOpen?_eq_none_iff.mp (by decide)
  have hfull : "Shop.Box<T> : IPair<(T, T)>".toList
      = qualifiedName ["Shop".toList] "Box".toList
        ++ ("<T>".toList ++ " : IPair<(T, T)>".toList) := by decide
  have hkept : "Box<T> : IPair<(T, T)>".toList
      = "Box".toList ++ ("<T>".toList ++ " : IPair<(T, T)>".toList) := by decide
  rw [hfull, hkept]
  exact (classDisplayName_keeps_tail_iff hpath hname hgenerics htail).mpr hinside

/-- The parentheses of a constructor constraint are lost. -/
theorem constructor_constraint_cut :
    classDisplayName "Box<T> where T : new()".toList = "Box<T> where T : new".toList
      ∧ normalize (classDisplayName "Box<T> where T : new()".toList)
        ≠ normalize "Box<T> where T : new()".toList := by
  decide

end TestScaffold.Declaration
