import TestScaffold.Proofs.TypeExpr.Shape
import Mathlib.Algebra.Order.Group.Multiset
import Mathlib.Tactic.Abel
/-!
# How many nodes are read

A type is read from slices of its text: its argument lists, its name and what stands between
parentheses are read in turn. That this never gives more nodes than the text has characters,
and one more, is no matter of well-formed texts. In any text the slices lie apart, and each
of them has lost a bracket.

Lengths would do for the count, but they would not say that nothing is used twice. So the
account is kept in characters, each as often as it stands in the text. A node is spelled by
its name and its marks (`spelling`), and each node but one of a text is linked to the others
by a comma, by the `>` behind its argument list or by the `(` in front of its tuple. `Spells`
says that some characters are enough for all of that at once, and every text spells what is
read from it (`spells_ofChars`, `spells_listOfChars`). The nodes are then counted by their
links.

What carries this for a single text is that one more character adds itself to the outline at
most (`Outline.spent_step_le`): what a mark throws away is in no part of the outline and is
never taken up again.
-/

namespace TestScaffold.TypeExpr

open Scan Text

/-! ## Nodes -/

mutual
/-- The nodes of a type, each as often as it stands there: the type itself first, then those
of its generic arguments and of its components. -/
def nodes : TypeExpr → List TypeExpr
  | ⟨name, arguments, ranks, nullable, components⟩ =>
    ⟨name, arguments, ranks, nullable, components⟩
      :: (nodesOfAll arguments ++ nodesOfAll components)
/-- The nodes of some types. -/
def nodesOfAll : List TypeExpr → List TypeExpr
  | [] => []
  | t :: ts => nodes t ++ nodesOfAll ts
end

theorem nodesOfAll_eq_flatMap (ts : List TypeExpr) : nodesOfAll ts = ts.flatMap nodes := by
  induction ts with
  | nil => simp [nodesOfAll]
  | cons t ts ih => simp [nodesOfAll, ih]

theorem nodes_eq (t : TypeExpr) :
    t.nodes = t :: (t.genericArguments ++ t.tupleComponents).flatMap nodes := by
  obtain ⟨name, arguments, ranks, nullable, components⟩ := t
  rw [nodes, nodesOfAll_eq_flatMap, nodesOfAll_eq_flatMap, List.flatMap_append]

/-- The nodes are the types inside the type. -/
theorem mem_nodes_iff {u : TypeExpr} : ∀ {t : TypeExpr}, u ∈ t.nodes ↔ IsNode t u
  | ⟨name, arguments, ranks, nullable, components⟩ => by
    have harguments : ∀ a ∈ arguments, u ∈ a.nodes ↔ IsNode a u := fun _ _ => mem_nodes_iff
    have hcomponents : ∀ c ∈ components, u ∈ c.nodes ↔ IsNode c u := fun _ _ => mem_nodes_iff
    rw [nodes_eq, List.mem_cons, List.mem_flatMap]
    constructor
    · rintro (rfl | ⟨x, hx, hu⟩)
      · exact .self _
      · rcases List.mem_append.mp hx with hx | hx
        · exact .argument hx ((harguments x hx).mp hu)
        · exact .component hx ((hcomponents x hx).mp hu)
    · rintro (_ | ⟨ha, h⟩ | ⟨hc, h⟩)
      · exact .inl rfl
      · exact .inr ⟨_, List.mem_append_left _ ha, (harguments _ ha).mpr h⟩
      · exact .inr ⟨_, List.mem_append_right _ hc, (hcomponents _ hc).mpr h⟩

/-! ## What types are spelled with -/

/-- The characters of marks: a `?` for the nullable mark, a `]` for each rank and a `?` behind
it for the mark of the rank. -/
def spellMarks (nullable : Bool) (ranks : List Bool) : Multiset Char :=
  .replicate ranks.length ']' + .replicate (ranks.count true + nullable.toNat) '?'

/-- A rank is spelled with its bracket. -/
theorem spellMarks_concat (nullable : Bool) (ranks : List Bool) :
    spellMarks nullable (ranks ++ [false]) = ']' ::ₘ spellMarks nullable ranks := by
  rw [spellMarks, List.length_append, List.length_singleton, List.count_append,
    List.count_singleton, if_neg (by decide), Multiset.replicate_succ, Multiset.cons_add]
  rfl

/-- Further marks are spelled with a `?` when there is at most one more. -/
theorem spellMarks_le {nullable nullable' : Bool} {ranks ranks' : List Bool}
    (hlength : ranks'.length = ranks.length)
    (hcount : ranks'.count true + nullable'.toNat ≤ ranks.count true + nullable.toNat + 1) :
    spellMarks nullable' ranks' ≤ '?' ::ₘ spellMarks nullable ranks := by
  rw [spellMarks, spellMarks, hlength, ← Multiset.add_cons, ← Multiset.replicate_succ]
  exact add_le_add_right (Multiset.replicate_mono _ hcount) _

/-- **What a node is spelled with**: its name and its marks. -/
def spelling (t : TypeExpr) : Multiset Char :=
  t.name.toList + spellMarks t.nullable (t.arrayRanks.map ArrayRank.nullable)

/-- The characters that link a node to others: a comma in front of it, the bracket behind an
argument list that begins with it, the one in front of a tuple that does. -/
def IsLink (c : Char) : Prop :=
  c = ',' ∨ c = '>' ∨ c = '('

/-- **Some characters are enough for some types**: all nodes can be spelled with them, and
all nodes but `free` many have one link each, with no character used twice. -/
def Spells (free : Nat) (ts : List TypeExpr) (chars : Multiset Char) : Prop :=
  ∃ links : Multiset Char, (∀ c ∈ links, IsLink c)
    ∧ links.card + free = (ts.flatMap nodes).length
    ∧ ((ts.flatMap nodes).map spelling).sum + links ≤ chars

namespace Spells

variable {free more : Nat} {ts us : List TypeExpr} {a b : Multiset Char}

/-- **Nodes are no more than characters** but for the free ones. -/
theorem length_le (h : Spells free ts a) : (ts.flatMap nodes).length ≤ a.card + free := by
  obtain ⟨links, -, hcard, hle⟩ := h
  have := Multiset.card_le_card hle
  rw [Multiset.card_add] at this
  omega

theorem nil : Spells 0 [] 0 :=
  ⟨0, by simp, rfl, le_refl 0⟩

theorem mono (h : Spells free ts a) (hab : a ≤ b) : Spells free ts b := by
  obtain ⟨links, hlinks, hcard, hle⟩ := h
  exact ⟨links, hlinks, hcard, hle.trans hab⟩

/-- Types side by side are spelled with what spells each of them. -/
theorem append (h : Spells free ts a) (h' : Spells more us b) :
    Spells (free + more) (ts ++ us) (a + b) := by
  obtain ⟨links, hlinks, hcard, hle⟩ := h
  obtain ⟨links', hlinks', hcard', hle'⟩ := h'
  refine ⟨links + links', fun c hc => ?_, ?_, ?_⟩
  · exact (Multiset.mem_add.mp hc).elim (hlinks c) (hlinks' c)
  · rw [List.flatMap_append, List.length_append, Multiset.card_add]
    omega
  · rw [List.flatMap_append, List.map_append, List.sum_append, add_add_add_comm]
    exact add_le_add hle hle'

/-- One more link leaves one node less without. -/
theorem link (h : Spells (free + 1) ts a) {c : Char} (hc : IsLink c) :
    Spells free ts (c ::ₘ a) := by
  obtain ⟨links, hlinks, hcard, hle⟩ := h
  refine ⟨c ::ₘ links, Multiset.forall_mem_cons.mpr ⟨hc, hlinks⟩, ?_, ?_⟩
  · rw [Multiset.card_cons]
    omega
  · rw [Multiset.add_cons]
    exact Multiset.cons_le_cons c hle

/-- A node is spelled with what spells it and what is right inside it. -/
theorem node {t : TypeExpr} (h : Spells 0 (t.genericArguments ++ t.tupleComponents) a)
    (hab : t.spelling + a ≤ b) : Spells 1 [t] b := by
  obtain ⟨links, hlinks, hcard, hle⟩ := h
  have hnodes : [t].flatMap nodes = t :: (t.genericArguments ++ t.tupleComponents).flatMap nodes :=
    (List.flatMap_singleton ..).trans t.nodes_eq
  refine ⟨links, hlinks, ?_, ?_⟩
  · rw [hnodes, List.length_cons, ← hcard]
  · rw [hnodes, List.map_cons, List.sum_cons, add_assoc]
    exact (add_le_add_right hle t.spelling).trans hab

end Spells

/-! ## What an outline keeps -/

theorem coe_trim_le (s : List Char) : (trim s : Multiset Char) ≤ s := by
  obtain ⟨a, b, -, -, hs⟩ := exists_eq_append_trim s
  have hinfix : trim s <:+: s := ⟨a, b, by rw [List.append_assoc]; exact hs.symm⟩
  exact Multiset.coe_le.mpr hinfix.sublist.subperm

namespace Outline

/-- The characters of argument lists, each with the bracket behind it. -/
def argumentChars (arguments : List (List Char)) : Multiset Char :=
  (arguments.map fun a : List Char => '>' ::ₘ (a : Multiset Char)).sum

/-- **The characters an outline has kept**: those of its argument lists, of its name, of what
was read since the last mark, and of its marks. -/
def spent (o : Outline) : Multiset Char :=
  argumentChars o.arguments + ((o.name.getD [] : Multiset Char) + o.pending)
    + spellMarks o.nullable o.ranks

variable (o : Outline) (c : Char)

theorem spent_keep : (o.keep c).spent = c ::ₘ o.spent := by
  have hpending : ((o.pending ++ [c] : List Char) : Multiset Char) = c ::ₘ o.pending := by
    rw [← Multiset.coe_add, add_comm]
    rfl
  rw [spent, keep, hpending, Multiset.add_cons, Multiset.add_cons, Multiset.cons_add]
  rfl

/-- A mark that ends no part throws away what was read since the last one. -/
theorem spent_drop_le : ({ o with pending := [] } : Outline).spent ≤ o.spent :=
  add_le_add_left (add_le_add_right (add_le_add_right (Multiset.zero_le _) _) _) _

/-- A mark that ends the name keeps it, less its blanks. -/
theorem spent_named_le : ({ o.named with pending := [] } : Outline).spent ≤ o.spent := by
  have hname : ((o.name.getD (trim o.pending) : List Char) : Multiset Char)
      ≤ (o.name.getD [] : Multiset Char) + o.pending := by
    cases o.name with
    | none => exact (coe_trim_le o.pending).trans (Multiset.le_add_left _ _)
    | some name => exact Multiset.le_add_right _ _
  exact add_le_add_left (add_le_add_right ((add_zero _).trans_le hname) _) _

/-- An argument list is kept with its bracket. -/
theorem spent_close :
    ({ o with arguments := o.arguments ++ [o.pending], pending := [] } : Outline).spent
      = '>' ::ₘ o.spent := by
  simp only [spent, argumentChars, List.map_append, List.map_singleton, List.sum_append,
    List.sum_singleton, ← Multiset.singleton_add, Multiset.coe_nil]
  abel

/-- A rank is kept with its bracket, and what stands in front of that is not. -/
theorem spent_rank_le :
    ({ o with ranks := o.ranks ++ [false], pending := [] } : Outline).spent ≤ ']' ::ₘ o.spent := by
  refine le_trans (Eq.le ?_) (Multiset.cons_le_cons ']' o.spent_drop_le)
  simp only [spent, spellMarks_concat, Multiset.add_cons]

/-- Further marks are kept with a `?` when there is at most one more. -/
theorem spent_marks_le {nullable : Bool} {ranks : List Bool}
    (hlength : ranks.length = o.ranks.length)
    (hcount : ranks.count true + nullable.toNat ≤ o.ranks.count true + o.nullable.toNat + 1) :
    ({ o with ranks, nullable } : Outline).spent ≤ '?' ::ₘ o.spent := by
  rw [spent, spent, ← Multiset.add_cons]
  exact add_le_add_right (spellMarks_le hlength hcount) _

theorem spent_nullable_le : ({ o with nullable := true } : Outline).spent ≤ '?' ::ₘ o.spent :=
  o.spent_marks_le rfl (by simp)

theorem spent_markRank_le (h : o.ranks ≠ []) :
    ({ o with ranks := o.ranks.dropLast ++ [true] } : Outline).spent ≤ '?' ::ₘ o.spent := by
  refine o.spent_marks_le ?_ ?_
  · rw [List.length_append, List.length_dropLast, List.length_singleton]
    have := List.length_pos_iff.mpr h
    omega
  · have := (List.dropLast_sublist o.ranks).count_le true
    rw [List.count_append, List.count_singleton_self]
    omega

/-- **A character adds itself at most** to what is kept. -/
theorem spent_step_le (h : o.afterRank = true → o.ranks ≠ []) :
    (o.step c).spent ≤ c ::ₘ o.spent := by
  have hkeep : (o.keep c).spent ≤ c ::ₘ o.spent := (o.spent_keep c).le
  have hnamed : ({ o.named with pending := [] } : Outline).spent ≤ c ::ₘ o.spent :=
    o.spent_named_le.trans (Multiset.le_cons_self _ c)
  unfold step
  dsimp only
  -- the characters in the order in which they are told apart, each at its levels
  split
  · split
    · exact hnamed
    · exact hkeep
  split
  · next hclose =>
    subst hclose
    split
    · exact o.spent_close.le
    · exact hkeep
  split
  · split
    · split
      · exact hnamed
      · exact hkeep
    · exact hkeep
  split
  · next hrank =>
    subst hrank
    split
    · exact o.spent_rank_le
    · exact hkeep
  split
  · next hmark =>
    subst hmark
    split
    · next hafter => exact o.spent_markRank_le (h hafter)
    · split
      · exact (spent_nullable_le _).trans (Multiset.cons_le_cons _ o.spent_named_le)
      · exact hkeep
  split
  · exact hkeep
  split
  · exact hkeep
  · exact hkeep

theorem ranks_ne_nil_of_afterRank {s : List Char} (h : (read s).afterRank = true) :
    (read s).ranks ≠ [] := by
  cases s using List.reverseRecOn with
  | nil => exact Bool.noConfusion h
  | append_singleton s c =>
    obtain ⟨rfl, hdepth⟩ := (steps_read s c).afterRank.mp h
    rw [read_concat]
    simp [step, hdepth]

/-- **What an outline keeps are characters of its text**, each used once. -/
theorem spent_read_le (s : List Char) : (read s).spent ≤ s := by
  induction s using List.reverseRecOn with
  | nil => exact le_refl 0
  | append_singleton s c ih =>
    rw [read_concat, ← Multiset.coe_add, add_comm]
    exact ((read s).spent_step_le c ranks_ne_nil_of_afterRank).trans (Multiset.cons_le_cons c ih)

/-- The name is kept as one, or in what was read since the last mark. -/
theorem coe_nameText_le :
    (o.nameText : Multiset Char) ≤ (o.name.getD [] : Multiset Char) + o.pending := by
  have htail : (trim o.pending : Multiset Char) ≤ (o.name.getD [] : Multiset Char) + o.pending :=
    (coe_trim_le o.pending).trans (Multiset.le_add_left _ _)
  unfold nameText
  split
  · exact htail
  · exact htail
  · next name _ hname =>
    rw [hname]
    exact Multiset.le_add_right _ _

variable {o} in
/-- The node of an outline is spelled with what the outline has kept besides its argument
lists and what else of its name is used. -/
theorem spelling_add_le {t : TypeExpr} {a : Multiset Char}
    (hranks : t.arrayRanks = o.ranks.map ArrayRank.mk) (hnullable : t.nullable = o.nullable)
    (hname : (t.name.toList : Multiset Char) + a ≤ o.nameText) :
    t.spelling + (argumentChars o.arguments + a) ≤ o.spent := by
  have hmarks : t.arrayRanks.map ArrayRank.nullable = o.ranks := by
    simp [hranks, Function.comp_def]
  calc t.spelling + (argumentChars o.arguments + a)
      = argumentChars o.arguments + (t.name.toList + a) + spellMarks o.nullable o.ranks := by
        rw [spelling, hmarks, hnullable]
        abel
    _ ≤ o.spent :=
        add_le_add_left (add_le_add_right (hname.trans o.coe_nameText_le) _) _

end Outline

/-! ## What is read -/

theorem cons_le_of_tupleInterior? {s inner : List Char} (h : tupleInterior? s = some inner) :
    '(' ::ₘ (inner : Multiset Char) ≤ s := by
  rw [tupleInterior?_eq_some_iff.mp h]
  exact Multiset.coe_le.mpr ((List.sublist_append_left inner [')']).cons_cons '(').subperm

/-- Types read from pieces with commas between them. -/
theorem spells_pieces {pieces : List (List Char)} (hne : pieces ≠ [])
    (h : ∀ p ∈ pieces, Spells 1 [ofChars (trim p)] p) :
    Spells 1 ((pieces.map trim).map ofChars) (List.intercalate [','] pieces : List Char) := by
  induction pieces with
  | nil => exact absurd rfl hne
  | cons p pieces ih =>
    obtain ⟨hp, hpieces⟩ := List.forall_mem_cons.mp h
    cases pieces with
    | nil => simpa using hp
    | cons q pieces =>
      have hrest := (ih (by simp) hpieces).link (.inl rfl)
      rw [List.intercalate_cons_cons, List.append_assoc, ← Multiset.coe_add]
      exact hp.append hrest

/-- Types read from argument lists, each with the bracket behind it. -/
theorem spells_arguments {arguments : List (List Char)}
    (h : ∀ a ∈ arguments, Spells 1 (listOfChars a) a) :
    Spells 0 (arguments.map listOfChars).flatten (Outline.argumentChars arguments) := by
  induction arguments with
  | nil => exact .nil
  | cons a arguments ih =>
    obtain ⟨ha, harguments⟩ := List.forall_mem_cons.mp h
    exact (ha.link (.inr (.inl rfl))).append (ih harguments)

/-- Types read from a list are spelled with it when shorter texts spell what is read from
them. -/
theorem spells_listOfChars_of {s : List Char}
    (h : ∀ p : List Char, p.length ≤ s.length → Spells 1 [ofChars p] p) :
    Spells 1 (listOfChars s) s := by
  have hpieces : ∀ p ∈ pieces ',' s, Spells 1 [ofChars (trim p)] p := fun p hp =>
    (h (trim p) (length_of_mem_split (List.mem_map_of_mem hp))).mono (coe_trim_le p)
  have hspells := spells_pieces (pieces_ne_nil ',' s) hpieces
  rwa [intercalate_pieces, ← split, ← listOfChars_eq_map] at hspells

/-- **A text spells what is read from it.** -/
theorem spells_ofChars (s : List Char) : Spells 1 [ofChars s] s := by
  induction hn : s.length using Nat.strongRecOn generalizing s with
  | ind n ih =>
    have hlist : ∀ l : List Char, l.length < n → Spells 1 (listOfChars l) l := fun l hl =>
      spells_listOfChars_of fun p hp => ih p.length (hp.trans_lt hl) p rfl
    have htrim : (trim s).length ≤ n := hn ▸ length_trim_le s
    refine Spells.mono ?_ (coe_trim_le s)
    cases htuple : tupleInterior? (trim s) with
    | some inner =>
      have hs := tupleInterior?_eq_some_iff.mp htuple
      have hinner := hlist inner ((length_of_tupleInterior? htuple).trans_le htrim)
      rw [ofChars_of_tuple hs]
      exact Spells.node (hinner.link (.inr (.inr rfl))) (cons_le_of_tupleInterior? htuple)
    | none =>
      have hspent := Outline.spent_read_le (trim s)
      have harguments := spells_arguments fun a ha =>
        hlist a ((Outline.length_of_mem_arguments ha).trans_le htrim)
      rw [ofChars_of_outline htuple]
      dsimp only
      split
      · next inner hname =>
        have hinner := hlist inner (((length_of_tupleInterior? hname).trans_le
          (Outline.length_nameText_le _)).trans_le htrim)
        refine Spells.node (harguments.append (hinner.link (.inr (.inr rfl)))) ?_
        refine (Outline.spelling_add_le rfl rfl ?_).trans hspent
        exact (zero_add _).trans_le (cons_le_of_tupleInterior? hname)
      · refine Spells.node (harguments.append .nil) ?_
        refine (Outline.spelling_add_le rfl rfl ?_).trans hspent
        rw [String.toList_ofList, add_zero]

/-- **A text spells the list that is read from it.** -/
theorem spells_listOfChars (s : List Char) : Spells 1 (listOfChars s) s :=
  spells_listOfChars_of fun p _ => spells_ofChars p

/-- **No part of a text is used twice.** The characters of a text are enough to spell all
nodes of the type that is read from it, and to link all but one of them to others; so it has
at most as many nodes as the text has characters, and one more. The same holds of all types
that are read from it as a list. -/
theorem nodes_parse_le (text : String) :
    (Spells 1 [parse text] text.toList ∧ (parse text).nodes.length ≤ text.length + 1)
      ∧ Spells 1 (parseList text) text.toList
      ∧ ((parseList text).flatMap nodes).length ≤ text.length + 1 := by
  have hcard : (text.toList : Multiset Char).card = text.length :=
    (Multiset.coe_card _).trans String.length_toList
  have htype : Spells 1 [parse text] text.toList := spells_ofChars text.toList
  have hlist : Spells 1 (parseList text) text.toList := spells_listOfChars text.toList
  refine ⟨⟨htype, ?_⟩, hlist, ?_⟩
  · rw [← hcard, ← List.flatMap_singleton nodes (parse text)]
    exact htype.length_le
  · rw [← hcard]
    exact hlist.length_le

/-- Each surplus bracket ends an argument list, and the bound is reached. -/
example : (parse ">>").nodes.length = 3 := by cbv

end TestScaffold.TypeExpr
