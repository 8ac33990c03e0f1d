import TestScaffold.Proofs.Scan.Splitting
import TestScaffold.Proofs.TypeExpr.Outline
import TestScaffold.Proofs.TypeExpr.RoundTrip
/-!
# The shape of what is read

A type has one of three shapes: a plain name, a name with generic arguments, or
a tuple. Whatever the text, a type that is read has no name when it has
components. But it may have components and generic arguments at once: in
`(a, b)<T>` the name is what stands in front of the `<`, and that the name is a
tuple is only seen when the arguments have been taken. Such a type is printed
as `<T>`, and its components are lost.

`GenericTuple` says of a text when that happens: it is no tuple as a whole, its
name stands between parentheses, and some `>` in it closes at the outer level.
This is all that can happen (`hasOneShape_ofChars_iff`). For the types inside a
type the same is asked of the parts that are read one inside the other
(`ReadWithin`), each of which is read as a node of the whole and each node of
which is read from such a part (`isNode_ofChars_iff`).
-/

namespace TestScaffold.TypeExpr

open Scan Text

/-! ## Shapes and nodes -/

/-- **The types inside a type**, at any depth, the type itself included. -/
inductive IsNode : TypeExpr → TypeExpr → Prop
  | self (t : TypeExpr) : IsNode t t
  | argument {t a u : TypeExpr} (ha : a ∈ t.genericArguments) (h : IsNode a u) : IsNode t u
  | component {t c u : TypeExpr} (hc : c ∈ t.tupleComponents) (h : IsNode c u) : IsNode t u

/-- **A type of one shape**: plain, generic or a tuple, and a tuple has no name. -/
inductive HasOneShape (t : TypeExpr) : Prop
  | plain (hargs : t.genericArguments = []) (hcomps : t.tupleComponents = [])
  | generic (hargs : t.genericArguments ≠ []) (hcomps : t.tupleComponents = [])
  | tuple (hargs : t.genericArguments = []) (hcomps : t.tupleComponents ≠ []) (hname : t.name = "")

theorem hasOneShape_iff {t : TypeExpr} :
    HasOneShape t ↔ ¬ (t.genericArguments ≠ [] ∧ t.tupleComponents ≠ [])
      ∧ (t.tupleComponents ≠ [] → t.name = "") := by
  constructor
  · rintro (⟨hargs, hcomps⟩ | ⟨-, hcomps⟩ | ⟨hargs, -, hname⟩)
    · exact ⟨fun h => h.1 hargs, fun h => absurd hcomps h⟩
    · exact ⟨fun h => h.2 hcomps, fun h => absurd hcomps h⟩
    · exact ⟨fun h => h.1 hargs, fun _ => hname⟩
  · rintro ⟨hboth, hname⟩
    by_cases hargs : t.genericArguments = []
    · by_cases hcomps : t.tupleComponents = []
      · exact .plain hargs hcomps
      · exact .tuple hargs hcomps (hname hcomps)
    · exact .generic hargs (not_not.mp fun hcomps => hboth ⟨hargs, hcomps⟩)

/-! ## What a text holds -/

/-- A `(` is first and a `)` is last. -/
def Parenthesised (s : List Char) : Prop :=
  ∃ inner, s = '(' :: (inner ++ [')'])

/-- **The components of a text** stand between the parentheses around it, or around its name. -/
inductive HoldsComponents (s inner : List Char) : Prop
  | whole (hs : s = '(' :: (inner ++ [')']))
  | named (hs : ¬ Parenthesised s) (hname : IsName s ('(' :: (inner ++ [')'])))

/-- **A text with both**: its name holds components, and it has an argument list. -/
structure GenericTuple (s : List Char) : Prop where
  /-- The text is no tuple as a whole, such as `(a<b>, c)`. -/
  notWhole : ¬ Parenthesised s
  /-- Its name is a tuple. -/
  tuple : ∃ name, IsName s name ∧ Parenthesised name
  /-- An argument list ends in it. -/
  generic : ∃ x y, s = x ++ '>' :: y ∧ depthBehind x ≤ 1

/-- **The parts of a text that are read**, one inside the other: the text itself, and what stands
between top-level commas in an argument list of such a part or among its components. -/
inductive ReadWithin : List Char → List Char → Prop
  | self (s : List Char) : ReadWithin s s
  | argument {s arguments piece part : List Char} (hs : ¬ Parenthesised (trim s))
      (hargs : IsArgumentList (trim s) arguments) (hpiece : piece ∈ split ',' arguments)
      (h : ReadWithin piece part) : ReadWithin s part
  | component {s inner piece part : List Char} (hinner : HoldsComponents (trim s) inner)
      (hpiece : piece ∈ split ',' inner) (h : ReadWithin piece part) : ReadWithin s part

theorem tupleInterior?_eq_some_iff {s inner : List Char} :
    tupleInterior? s = some inner ↔ s = '(' :: (inner ++ [')']) := by
  constructor
  · intro h
    unfold tupleInterior? at h
    split at h
    · next rest =>
      split at h
      · next hlast =>
        obtain ⟨front, hrest⟩ := List.getLast?_eq_some_iff.mp hlast
        rw [hrest, List.dropLast_concat] at h
        rw [hrest, Option.some.inj h]
      · exact absurd h (by simp)
    · exact absurd h (by simp)
  · rintro rfl
    simp [tupleInterior?]

theorem tupleInterior?_eq_none_iff {s : List Char} :
    tupleInterior? s = none ↔ ¬ Parenthesised s := by
  rw [Option.eq_none_iff_forall_not_mem]
  exact ⟨fun h ⟨inner, hs⟩ => h inner (tupleInterior?_eq_some_iff.mpr hs),
    fun h inner hs => h ⟨inner, tupleInterior?_eq_some_iff.mp hs⟩⟩

theorem listOfChars_ne_nil (s : List Char) : listOfChars s ≠ [] := by
  rw [listOfChars_eq_map, split]
  simpa using pieces_ne_nil ',' s

theorem mem_listOfChars_iff {s : List Char} {t : TypeExpr} :
    t ∈ listOfChars s ↔ ∃ piece ∈ split ',' s, t = ofChars piece := by
  simp [listOfChars_eq_map, eq_comm]

/-- **The generic arguments that are read** are the types in the argument lists. -/
theorem mem_genericArguments_ofChars_iff {s : List Char} {t : TypeExpr} :
    t ∈ (ofChars s).genericArguments ↔ ¬ Parenthesised (trim s)
      ∧ ∃ arguments, IsArgumentList (trim s) arguments ∧ t ∈ listOfChars arguments := by
  by_cases hs : Parenthesised (trim s)
  · obtain ⟨inner, hinner⟩ := id hs
    rw [ofChars_of_tuple hinner]
    simp [tuple, hs]
  · have hargs : (ofChars s).genericArguments
        = ((Outline.read (trim s)).arguments.map listOfChars).flatten := by
      rw [ofChars_of_outline (tupleInterior?_eq_none_iff.mpr hs)]
      dsimp only
      split <;> rfl
    simp only [hargs, hs, List.mem_flatten, List.mem_map, ← Outline.mem_arguments_iff,
      exists_exists_and_eq_and, not_false_eq_true, true_and]

/-- **The components that are read** are the types between the parentheses. -/
theorem mem_tupleComponents_ofChars_iff {s : List Char} {t : TypeExpr} :
    t ∈ (ofChars s).tupleComponents ↔
      ∃ inner, HoldsComponents (trim s) inner ∧ t ∈ listOfChars inner := by
  constructor
  · intro h
    by_cases hs : Parenthesised (trim s)
    · obtain ⟨inner, hinner⟩ := hs
      rw [ofChars_of_tuple hinner] at h
      exact ⟨inner, .whole hinner, h⟩
    · rw [ofChars_of_outline (tupleInterior?_eq_none_iff.mpr hs)] at h
      dsimp only at h
      split at h
      · next inner hinner =>
        exact ⟨inner, .named hs (Outline.isName_iff.mpr (tupleInterior?_eq_some_iff.mp hinner)), h⟩
      · exact absurd h List.not_mem_nil
  · rintro ⟨inner, hinner | ⟨hs, hname⟩, h⟩
    · rwa [ofChars_of_tuple hinner]
    · have hinner := tupleInterior?_eq_some_iff.mpr (Outline.isName_iff.mp hname)
      rw [ofChars_of_outline (tupleInterior?_eq_none_iff.mpr hs)]
      dsimp only
      rwa [hinner]

/-- **A type with components has no name.** -/
theorem name_ofChars {s : List Char} (h : (ofChars s).tupleComponents ≠ []) :
    (ofChars s).name = "" := by
  by_cases hs : Parenthesised (trim s)
  · obtain ⟨inner, hinner⟩ := hs
    rw [ofChars_of_tuple hinner, tuple]
  · rw [ofChars_of_outline (tupleInterior?_eq_none_iff.mpr hs)] at h ⊢
    dsimp only at h ⊢
    split at h
    · rfl
    · exact absurd rfl h

theorem genericArguments_ofChars_ne_nil_iff {s : List Char} :
    (ofChars s).genericArguments ≠ [] ↔
      ¬ Parenthesised (trim s) ∧ ∃ x y, trim s = x ++ '>' :: y ∧ depthBehind x ≤ 1 := by
  constructor
  · intro h
    obtain ⟨t, ht⟩ := List.exists_mem_of_ne_nil _ h
    obtain ⟨hs, arguments, ⟨x, y, heq, hdepth, -⟩, -⟩ := mem_genericArguments_ofChars_iff.mp ht
    exact ⟨hs, x, y, heq, hdepth⟩
  · rintro ⟨hs, x, y, heq, hdepth⟩
    obtain ⟨t, ht⟩ := List.exists_mem_of_ne_nil _ (listOfChars_ne_nil (Outline.read x).pending)
    exact List.ne_nil_of_mem (mem_genericArguments_ofChars_iff.mpr
      ⟨hs, _, ⟨x, y, heq, hdepth, Outline.isTail_iff.mpr rfl⟩, ht⟩)

theorem tupleComponents_ofChars_ne_nil_iff {s : List Char} :
    (ofChars s).tupleComponents ≠ [] ↔ ∃ inner, HoldsComponents (trim s) inner := by
  constructor
  · intro h
    obtain ⟨t, ht⟩ := List.exists_mem_of_ne_nil _ h
    obtain ⟨inner, hinner, -⟩ := mem_tupleComponents_ofChars_iff.mp ht
    exact ⟨inner, hinner⟩
  · rintro ⟨inner, hinner⟩
    obtain ⟨t, ht⟩ := List.exists_mem_of_ne_nil _ (listOfChars_ne_nil inner)
    exact List.ne_nil_of_mem (mem_tupleComponents_ofChars_iff.mpr ⟨inner, hinner, ht⟩)

/-! ## The shape of what is read -/

/-- **What is read has one shape** unless its text has two. -/
theorem hasOneShape_ofChars_iff {s : List Char} :
    HasOneShape (ofChars s) ↔ ¬ GenericTuple (trim s) := by
  rw [hasOneShape_iff, and_iff_left name_ofChars, genericArguments_ofChars_ne_nil_iff,
    tupleComponents_ofChars_ne_nil_iff, not_iff_not]
  constructor
  · rintro ⟨⟨hs, hgeneric⟩, inner, hwhole | ⟨-, hname⟩⟩
    · exact absurd ⟨inner, hwhole⟩ hs
    · exact ⟨hs, ⟨_, hname, inner, rfl⟩, hgeneric⟩
  · rintro ⟨hs, ⟨_, hname, inner, rfl⟩, hgeneric⟩
    exact ⟨⟨hs, hgeneric⟩, inner, .named hs hname⟩

/-- **The nodes of a type that is read** are the types that are read of the parts of its text. -/
theorem isNode_ofChars_iff {s : List Char} {t : TypeExpr} :
    IsNode (ofChars s) t ↔ ∃ part, ReadWithin s part ∧ t = ofChars part := by
  constructor
  · intro h
    generalize hu : ofChars s = u at h
    induction h generalizing s with
    | self => exact ⟨s, .self s, hu.symm⟩
    | argument ha _ ih =>
      obtain ⟨hs, arguments, hargs, hmem⟩ := mem_genericArguments_ofChars_iff.mp (hu ▸ ha)
      obtain ⟨piece, hpiece, rfl⟩ := mem_listOfChars_iff.mp hmem
      obtain ⟨part, hpart, rfl⟩ := ih rfl
      exact ⟨part, .argument hs hargs hpiece hpart, rfl⟩
    | component hc _ ih =>
      obtain ⟨inner, hinner, hmem⟩ := mem_tupleComponents_ofChars_iff.mp (hu ▸ hc)
      obtain ⟨piece, hpiece, rfl⟩ := mem_listOfChars_iff.mp hmem
      obtain ⟨part, hpart, rfl⟩ := ih rfl
      exact ⟨part, .component hinner hpiece hpart, rfl⟩
  · rintro ⟨part, hpart, rfl⟩
    induction hpart with
    | self => exact .self _
    | argument hs hargs hpiece _ ih =>
      have hmem := mem_listOfChars_iff.mpr ⟨_, hpiece, rfl⟩
      exact .argument (mem_genericArguments_ofChars_iff.mpr ⟨hs, _, hargs, hmem⟩) ih
    | component hinner hpiece _ ih =>
      have hmem := mem_listOfChars_iff.mpr ⟨_, hpiece, rfl⟩
      exact .component (mem_tupleComponents_ofChars_iff.mpr ⟨_, hinner, hmem⟩) ih

/-- **The nodes of a parsed type have one shape, unless a generic tuple is read.** Whatever the
text, no node with components has a name. And all nodes are plain, generic or tuples, and never
two of these, exactly when no part of the text that is read has a tuple for its name and an
argument list too. -/
theorem nodes_one_shape_iff (text : String) :
    (∀ t, IsNode (parse text) t → t.tupleComponents ≠ [] → t.name = "")
      ∧ ((∀ t, IsNode (parse text) t → HasOneShape t) ↔
          ∀ part, ReadWithin text.toList part → ¬ GenericTuple (trim part)) := by
  have hnode : ∀ t, IsNode (parse text) t ↔ ∃ part, ReadWithin text.toList part
      ∧ t = ofChars part := fun t => isNode_ofChars_iff
  constructor
  · intro t ht
    obtain ⟨part, -, rfl⟩ := (hnode t).mp ht
    exact name_ofChars
  · constructor
    · intro h part hpart
      exact hasOneShape_ofChars_iff.mp (h _ ((hnode _).mpr ⟨part, hpart, rfl⟩))
    · intro h t ht
      obtain ⟨part, hpart, rfl⟩ := (hnode t).mp ht
      exact hasOneShape_ofChars_iff.mpr (h part hpart)

/-- A tuple with a rank behind it has components, so it has no name. -/
theorem nodes_one_shape_iff_rankedTuple :
    (parse "(a, b)[]").tupleComponents ≠ [] ∧ (parse "(a, b)[]").name = "" := by
  have hname : IsName (trim "(a, b)[]".toList) "(a, b)".toList :=
    Outline.isName_iff.mpr (by decide)
  have hcomps : (parse "(a, b)[]").tupleComponents ≠ [] :=
    tupleComponents_ofChars_ne_nil_iff.mpr
      ⟨"a, b".toList, .named (tupleInterior?_eq_none_iff.mp (by decide)) hname⟩
  exact ⟨hcomps, (nodes_one_shape_iff "(a, b)[]").1 _ (.self _) hcomps⟩

/-- `(a, b)<T>` is generic and a tuple. -/
theorem generic_tuple_read : ¬ ∀ t, IsNode (parse "(a, b)<T>") t → HasOneShape t := by
  intro h
  have hshape : HasOneShape (ofChars "(a, b)<T>".toList) := h _ (.self _)
  have hname : IsName (trim "(a, b)<T>".toList) "(a, b)".toList :=
    Outline.isName_iff.mpr (by decide)
  refine hasOneShape_ofChars_iff.mp hshape ⟨?_, ⟨_, hname, "a, b".toList, by decide⟩, ?_⟩
  · exact tupleInterior?_eq_none_iff.mp (by decide)
  · exact ⟨"(a, b)<T".toList, [], by decide, by decide⟩

end TestScaffold.TypeExpr
