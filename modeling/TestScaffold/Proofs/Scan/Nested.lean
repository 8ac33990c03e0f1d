import Mathlib.Data.List.Basic
import TestScaffold.Scan.Bracket
/-!
# Properly nested texts

The readers of declarations count brackets of all three kinds on one depth. On
a text that is **properly nested**, where every bracket is closed by one of its
own kind and groups do not overlap, counting and matching agree, and each reader
passes the whole text as if it held no bracket at all: `cutAtClose?_append_nested`
and `cutAtOpenFrom?_append_nested` say so for the two cuts at brackets.

`Nested` describes such texts by how they are put together. `nested_iff_matched`
says that they are the texts a reader with a stack of open brackets accepts, so
that nesting is decidable.
-/

namespace TestScaffold.Scan

/-! ## Brackets and their partners -/

/-- Whether a character opens or closes a level. -/
def isBracket (c : Char) : Bool :=
  isOpening c || isClosing c

/-- The bracket that closes the level opened by a bracket of the same kind. -/
def closer? (c : Char) : Option Char :=
  if c = '<' then some '>' else if c = '[' then some ']'
  else if c = '(' then some ')' else none

theorem isBracket_eq_false_iff {c : Char} :
    isBracket c = false ↔ isOpening c = false ∧ isClosing c = false :=
  Bool.or_eq_false_iff

/-- No bracket both opens and closes. -/
theorem isOpening_eq_false_of_isClosing {c : Char} (h : isClosing c = true) :
    isOpening c = false := by
  simp only [isClosing, Bool.or_eq_true, beq_iff_eq] at h
  rcases h with (rfl | rfl) | rfl <;> decide

/-- There are three pairs of brackets. -/
theorem closer?_eq_some_iff {o c : Char} :
    closer? o = some c ↔
      (o = '<' ∧ c = '>') ∨ (o = '[' ∧ c = ']') ∨ (o = '(' ∧ c = ')') := by
  unfold closer?
  constructor
  · intro h
    split at h
    · next ho => exact .inl ⟨ho, (Option.some.inj h).symm⟩
    · split at h
      · next ho => exact .inr (.inl ⟨ho, (Option.some.inj h).symm⟩)
      · split at h
        · next ho => exact .inr (.inr ⟨ho, (Option.some.inj h).symm⟩)
        · exact absurd h (by simp)
  · rintro (⟨rfl, rfl⟩ | ⟨rfl, rfl⟩ | ⟨rfl, rfl⟩) <;> rfl

theorem isOpening_of_closer? {o c : Char} (h : closer? o = some c) :
    isOpening o = true := by
  rcases closer?_eq_some_iff.mp h with ⟨rfl, -⟩ | ⟨rfl, -⟩ | ⟨rfl, -⟩ <;> rfl

theorem isClosing_of_closer? {o c : Char} (h : closer? o = some c) :
    isClosing c = true := by
  rcases closer?_eq_some_iff.mp h with ⟨-, rfl⟩ | ⟨-, rfl⟩ | ⟨-, rfl⟩ <;> rfl

/-- What closes nothing of its own kind is no opening bracket. -/
theorem exists_closer?_of_isOpening {o : Char} (h : isOpening o = true) :
    ∃ c, closer? o = some c := by
  simp only [isOpening, Bool.or_eq_true, beq_iff_eq] at h
  rcases h with (rfl | rfl) | rfl
  · exact ⟨'>', rfl⟩
  · exact ⟨']', rfl⟩
  · exact ⟨')', rfl⟩

/-! ## Nesting -/

/-- **A properly nested text**: characters that are no brackets, and groups
between two brackets of one kind with a properly nested text inside. -/
inductive Nested : List Char → Prop
  | nil : Nested []
  | plain {c : Char} {s : List Char} (hc : isBracket c = false) (hs : Nested s) :
      Nested (c :: s)
  | group {o c : Char} {a s : List Char} (hoc : closer? o = some c) (ha : Nested a)
      (hs : Nested s) : Nested (o :: (a ++ c :: s))

namespace Nested

/-- A text without brackets is properly nested. -/
theorem of_plain {s : List Char} (h : ∀ c ∈ s, isBracket c = false) : Nested s := by
  induction s with
  | nil => exact .nil
  | cons c s ih =>
    exact .plain (h c List.mem_cons_self) (ih fun d hd => h d (List.mem_cons_of_mem c hd))

/-- **Nested texts may be put side by side.** -/
theorem append {a b : List Char} (ha : Nested a) (hb : Nested b) : Nested (a ++ b) := by
  induction ha with
  | nil => exact hb
  | plain hc _ ih => exact .plain hc ih
  | @group o c a s hoc hinside _ _ ih =>
    rw [List.cons_append, List.append_assoc, List.cons_append]
    exact .group hoc hinside ih

/-- A nested text between two brackets of one kind is nested. -/
theorem enclose {o c : Char} {a : List Char} (hoc : closer? o = some c)
    (ha : Nested a) : Nested (o :: (a ++ [c])) :=
  .group hoc ha .nil

/-- A nested text, a plain character and a nested text. -/
theorem join {a b : List Char} {x : Char} (ha : Nested a) (hx : isBracket x = false)
    (hb : Nested b) : Nested (a ++ x :: b) :=
  ha.append (.plain hx hb)

end Nested

/-! ## Nesting is decidable -/

/-- Whether every bracket of a text is closed by one of its own kind, when the
closing brackets on the stack are still to come. -/
def matched : List Char → List Char → Bool
  | stack, [] => stack.isEmpty
  | stack, c :: s =>
    match closer? c with
    | some close => matched (close :: stack) s
    | none =>
      if isClosing c then stack.head? == some c && matched stack.tail s
      else matched stack s

/-- What a text with some brackets still to be closed looks like: nested texts
in front of, between and behind their closing brackets. -/
def NestedUnder : List Char → List Char → Prop
  | [], s => Nested s
  | top :: stack, s => ∃ a rest, Nested a ∧ s = a ++ top :: rest ∧ NestedUnder stack rest

theorem NestedUnder.cons {c : Char} (hc : isBracket c = false) :
    ∀ {stack s : List Char}, NestedUnder stack s → NestedUnder stack (c :: s)
  | [], _, h => .plain hc h
  | _ :: _, _, ⟨a, rest, ha, hs, hrest⟩ =>
    ⟨c :: a, rest, .plain hc ha, by rw [hs, List.cons_append], hrest⟩

theorem NestedUnder.group {o c : Char} (hoc : closer? o = some c) :
    ∀ {stack s : List Char}, NestedUnder (c :: stack) s → NestedUnder stack (o :: s)
  | [], _, ⟨_, _, ha, hs, hrest⟩ => hs ▸ Nested.group hoc ha hrest
  | _ :: _, _, ⟨a, _, ha, hs, b, rest, hb, hb', hrest⟩ =>
    ⟨o :: (a ++ c :: b), rest, Nested.group hoc ha hb,
      by rw [hs, hb', List.cons_append, List.append_assoc, List.cons_append], hrest⟩

/-- The reader with a stack accepts nothing but nested texts. -/
theorem nestedUnder_of_matched {stack s : List Char} (h : matched stack s = true) :
    NestedUnder stack s := by
  induction s generalizing stack with
  | nil =>
    rw [matched, List.isEmpty_iff] at h
    rw [h]
    exact .nil
  | cons c s ih =>
    rw [matched] at h
    cases hc : closer? c with
    | some close =>
      rw [hc] at h
      exact .group hc (ih h)
    | none =>
      rw [hc] at h
      by_cases hclose : isClosing c = true
      · cases stack with
        | nil => simp [hclose] at h
        | cons top stack =>
          simp only [hclose, if_true, List.head?_cons, List.tail_cons, Bool.and_eq_true,
            beq_iff_eq, Option.some.injEq] at h
          exact ⟨[], s, .nil, by rw [h.1, List.nil_append], ih h.2⟩
      · -- every opening bracket has a closer, so this is no bracket at all
        rw [Bool.not_eq_true] at hclose
        simp only [hclose, Bool.false_eq_true, if_false] at h
        have hopen : isOpening c = false := by
          rw [← Bool.not_eq_true]
          intro ho
          obtain ⟨close, hclose'⟩ := exists_closer?_of_isOpening ho
          rw [hc] at hclose'
          exact absurd hclose' (by simp)
        exact .cons (isBracket_eq_false_iff.mpr ⟨hopen, hclose⟩) (ih h)

/-- The reader with a stack passes nested texts. -/
theorem Nested.matched_append {a : List Char} (ha : Nested a) (stack s : List Char) :
    matched stack (a ++ s) = matched stack s := by
  induction ha generalizing stack s with
  | nil => rfl
  | plain hc _ ih =>
    obtain ⟨hopen, hclose⟩ := isBracket_eq_false_iff.mp hc
    rw [List.cons_append, matched]
    cases hcl : closer? _ with
    | some close =>
      rw [isOpening_of_closer? hcl] at hopen
      exact absurd hopen (by simp)
    | none => simpa [hclose] using ih stack s
  | @group o c a t hoc _ _ iha iht =>
    have hnone : closer? c = none := by
      rcases closer?_eq_some_iff.mp hoc with ⟨-, rfl⟩ | ⟨-, rfl⟩ | ⟨-, rfl⟩ <;> rfl
    rw [List.cons_append, List.append_assoc, matched, hoc]
    -- the group puts its closer on the stack and takes it off again
    show matched (c :: stack) (a ++ (c :: (t ++ s))) = _
    rw [iha, matched, hnone]
    simpa [isClosing_of_closer? hoc] using iht stack s

/-- **Nesting is what the reader with a stack accepts.** -/
theorem nested_iff_matched {s : List Char} : Nested s ↔ matched [] s = true := by
  constructor
  · intro h
    have := h.matched_append [] []
    rwa [List.append_nil] at this
  · exact nestedUnder_of_matched

instance : DecidablePred Nested :=
  fun _ => decidable_of_iff _ nested_iff_matched.symm

/-! ## Cutting at the closing bracket -/

theorem cutAtClose?_of_opening {o : Char} (ho : isOpening o = true) (depth : Nat)
    (s : List Char) :
    cutAtClose? depth (o :: s)
      = (cutAtClose? (depth + 1) s).map fun (before, after) => (o :: before, after) := by
  simp only [cutAtClose?, ho, if_true]

theorem cutAtClose?_of_plain {c : Char} (hc : isBracket c = false) (depth : Nat)
    (s : List Char) :
    cutAtClose? depth (c :: s)
      = (cutAtClose? depth s).map fun (before, after) => (c :: before, after) := by
  obtain ⟨hopen, hclose⟩ := isBracket_eq_false_iff.mp hc
  simp only [cutAtClose?, hopen, hclose, Bool.false_eq_true, if_false]

theorem cutAtClose?_of_closing {c : Char} (hc : isClosing c = true) (depth : Nat)
    (s : List Char) :
    cutAtClose? (depth + 2) (c :: s)
      = (cutAtClose? (depth + 1) s).map fun (before, after) => (c :: before, after) := by
  simp only [cutAtClose?, isOpening_eq_false_of_isClosing hc, hc, Bool.false_eq_true,
    if_false, if_true]

/-- **The search for a closing bracket passes nested texts.** -/
theorem cutAtClose?_append_nested {a : List Char} (ha : Nested a) (depth : Nat)
    (s : List Char) :
    cutAtClose? (depth + 1) (a ++ s)
      = (cutAtClose? (depth + 1) s).map fun (before, after) => (a ++ before, after) := by
  induction ha generalizing depth s with
  | nil => simp
  | plain hc _ ih =>
    rw [List.cons_append, cutAtClose?_of_plain hc, ih, Option.map_map]
    rfl
  | @group o c a t hoc _ _ iha iht =>
    rw [List.cons_append, cutAtClose?_of_opening (isOpening_of_closer? hoc),
      List.append_assoc, iha, List.cons_append,
      cutAtClose?_of_closing (isClosing_of_closer? hoc), iht]
    simp [Function.comp_def]

/-- **A group ends at the bracket behind its nested text.** -/
theorem cutAtClose?_nested {a : List Char} {c : Char} (ha : Nested a)
    (hc : isClosing c = true) (s : List Char) :
    cutAtClose? 1 (a ++ c :: s) = some (a, s) := by
  rw [cutAtClose?_append_nested ha 0]
  simp only [cutAtClose?, isOpening_eq_false_of_isClosing hc, hc, Bool.false_eq_true,
    if_false, if_true, Option.map_some, List.append_nil]

/-! ## Cutting at an opening bracket -/

/-- **The search for an opening bracket passes nested texts** once a level is
open. -/
theorem cutAtOpenFrom?_append_nested (b : Char) {a : List Char} (ha : Nested a)
    (depth : Nat) (s : List Char) :
    cutAtOpenFrom? b (depth + 1) (a ++ s)
      = (cutAtOpenFrom? b (depth + 1) s).map
          fun (before, after) => (a ++ before, after) := by
  induction ha generalizing depth s with
  | nil => simp
  | plain hc _ ih =>
    obtain ⟨hopen, hclose⟩ := isBracket_eq_false_iff.mp hc
    rw [List.cons_append, cutAtOpenFrom?, if_neg (by simp), depthAfter, hopen, hclose]
    simp only [Bool.false_eq_true, if_false]
    rw [ih, Option.map_map]
    rfl
  | @group o c a t hoc _ _ iha iht =>
    have hc := isClosing_of_closer? hoc
    rw [List.cons_append, cutAtOpenFrom?, if_neg (by simp), depthAfter,
      isOpening_of_closer? hoc, if_pos rfl, List.append_assoc, iha, List.cons_append,
      cutAtOpenFrom?, if_neg (by simp), depthAfter, isOpening_eq_false_of_isClosing hc, hc]
    simp only [Bool.false_eq_true, if_false, if_true, Nat.add_sub_cancel]
    rw [iht]
    simp [Function.comp_def]

/-- The search for an opening bracket at depth zero passes the text `a`. -/
def Skipped (b : Char) (a : List Char) : Prop :=
  ∀ s, cutAtOpen? b (a ++ s)
    = (cutAtOpen? b s).map fun (before, after) => (a ++ before, after)

namespace Skipped

variable {b : Char}

theorem nil : Skipped b [] := by
  intro s
  simp

theorem append {a a' : List Char} (ha : Skipped b a) (ha' : Skipped b a') :
    Skipped b (a ++ a') := by
  intro s
  rw [List.append_assoc, ha, ha', Option.map_map]
  simp [Function.comp_def]

/-- Characters that are no brackets are passed. -/
theorem of_plain (hb : isBracket b = true) {a : List Char}
    (ha : ∀ c ∈ a, isBracket c = false) : Skipped b a := by
  induction a with
  | nil => exact nil
  | cons c a ih =>
    have hc := ha c List.mem_cons_self
    obtain ⟨hopen, hclose⟩ := isBracket_eq_false_iff.mp hc
    have hne : c ≠ b := by
      rintro rfl
      rw [hb] at hc
      exact Bool.noConfusion hc
    intro s
    unfold cutAtOpen?
    rw [List.cons_append, cutAtOpenFrom?, if_neg (by simp [hne]), depthAfter, hopen, hclose]
    have := ih (fun d hd => ha d (List.mem_cons_of_mem c hd)) s
    unfold cutAtOpen? at this
    simp only [Bool.false_eq_true, if_false]
    rw [this, Option.map_map]
    rfl

/-- A group of another kind is passed. -/
theorem group {o c : Char} {a : List Char} (hoc : closer? o = some c) (ho : o ≠ b)
    (ha : Nested a) (hb : c ≠ b) : Skipped b (o :: (a ++ [c])) := by
  intro s
  have hc := isClosing_of_closer? hoc
  unfold cutAtOpen?
  rw [List.cons_append, cutAtOpenFrom?, if_neg (by simp [ho]), depthAfter,
    isOpening_of_closer? hoc, if_pos rfl, List.append_assoc,
    cutAtOpenFrom?_append_nested b ha 0, List.singleton_append, cutAtOpenFrom?,
    if_neg (by simp [hb]), depthAfter, isOpening_eq_false_of_isClosing hc, hc]
  simp [Function.comp_def]

/-- **A bracket behind a text that is passed** is found. -/
theorem cutAtOpen?_append {a : List Char} (ha : Skipped b a) (s : List Char) :
    cutAtOpen? b (a ++ b :: s) = some (a, s) := by
  rw [ha, cutAtOpen?, cutAtOpenFrom?, if_pos ⟨rfl, rfl⟩, Option.map_some]
  simp

end Skipped

/-- Where the bracket does not stand there is nothing to cut at. -/
theorem cutAtOpenFrom?_eq_none {b : Char} {s : List Char} (h : b ∉ s) (depth : Nat) :
    cutAtOpenFrom? b depth s = none := by
  induction s generalizing depth with
  | nil => rfl
  | cons c s ih =>
    have hc : c ≠ b := fun he => h (he ▸ List.mem_cons_self)
    rw [cutAtOpenFrom?, if_neg (by simp [hc]), ih (fun hb => h (List.mem_cons_of_mem c hb))]
    rfl

end TestScaffold.Scan
