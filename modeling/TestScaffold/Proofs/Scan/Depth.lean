import Mathlib.Data.List.Basic
import TestScaffold.Proofs.Scan.Nested
/-!
# Depth by counting

How deep a place of a text is nested can be said without going over the text: a place
is **unnested** when every opening bracket in front of it is made up for, that is, when
somewhere behind that bracket and still in front of the place there have been as many
closing brackets as opening ones. A surplus closing bracket does no harm, for only what
stands behind an opening bracket is counted.

`unnested_iff` says that these are the places at which a reader that keeps the depth
stands at depth zero. What makes it true is `foldl_depthAfter_eq_zero_iff`: a depth that
never falls below zero is zero exactly when no end of the text has more opening brackets
than closing ones.

Places are byte offsets. `shown` is the list of the characters that count, with their
offsets in increasing order.
-/

namespace TestScaffold.Scan

/-- The brackets that open a level. -/
def openingBrackets : List Char :=
  ['<', '[', '(']

/-- The brackets that close a level. -/
def closingBrackets : List Char :=
  ['>', ']', ')']

theorem isOpening_iff {c : Char} : isOpening c = true ↔ c ∈ openingBrackets := by
  simp [isOpening, openingBrackets, or_assoc]

theorem isClosing_iff {c : Char} : isClosing c = true ↔ c ∈ closingBrackets := by
  simp [isClosing, closingBrackets, or_assoc]

theorem isBracket_eq_true_iff {c : Char} :
    isBracket c = true ↔ c ∈ openingBrackets ∨ c ∈ closingBrackets := by
  rw [isBracket, Bool.or_eq_true, isOpening_iff, isClosing_iff]

/-! ## Characters and their places -/

/-- The characters of a text with their byte offsets, the first one standing at
`offset`. -/
def charsFrom : Nat → List Char → List (Nat × Char)
  | _, [] => []
  | offset, c :: rest => (offset, c) :: charsFrom (offset + c.utf8Size) rest

/-- The places stand in increasing order. -/
def Increasing (shown : List (Nat × Char)) : Prop :=
  shown.Pairwise fun a b => a.1 < b.1

theorem charsFrom_append (offset : Nat) (a b : List Char) :
    charsFrom offset (a ++ b)
      = charsFrom offset a ++ charsFrom (offset + Text.byteLength a) b := by
  induction a generalizing offset with
  | nil => rfl
  | cons c a ih =>
    rw [List.cons_append, charsFrom, ih, charsFrom, List.cons_append, Text.byteLength_cons,
      Nat.add_assoc]

/-- The characters of a text stand from its beginning on and in front of its end. -/
theorem bounds_of_mem_charsFrom {offset : Nat} {text : List Char} {x : Nat × Char}
    (h : x ∈ charsFrom offset text) :
    offset ≤ x.1 ∧ x.1 < offset + Text.byteLength text := by
  induction text generalizing offset with
  | nil => exact absurd h List.not_mem_nil
  | cons c text ih =>
    have := Char.utf8Size_pos c
    rw [Text.byteLength_cons]
    rcases List.mem_cons.mp h with rfl | h
    · dsimp only
      omega
    · have := ih h
      omega

theorem increasing_charsFrom (offset : Nat) (text : List Char) :
    Increasing (charsFrom offset text) := by
  induction text generalizing offset with
  | nil => exact List.Pairwise.nil
  | cons c text ih =>
    refine List.Pairwise.cons (fun x hx => ?_) (ih _)
    have := Char.utf8Size_pos c
    have := (bounds_of_mem_charsFrom hx).1
    dsimp only
    omega

/-- **A character stands at its offset**: what stands in front of it takes that many
bytes. -/
theorem mem_charsFrom_iff {offset o : Nat} {text : List Char} {c : Char} :
    (o, c) ∈ charsFrom offset text ↔
      ∃ before after, text = before ++ c :: after ∧ offset + Text.byteLength before = o := by
  constructor
  · intro h
    induction text generalizing offset with
    | nil => exact absurd h List.not_mem_nil
    | cons d text ih =>
      rcases List.mem_cons.mp h with heq | h
      · obtain ⟨rfl, rfl⟩ := Prod.mk.inj heq
        exact ⟨[], text, rfl, by simp⟩
      · obtain ⟨before, after, rfl, ho⟩ := ih h
        exact ⟨d :: before, after, rfl, by rw [Text.byteLength_cons, ← ho]; omega⟩
  · rintro ⟨before, after, rfl, rfl⟩
    rw [charsFrom_append, charsFrom]
    simp

namespace Increasing

variable {shown a b : List (Nat × Char)}

/-- What stands on one side of a place and on the other. -/
theorem append_iff :
    Increasing (a ++ b) ↔ Increasing a ∧ Increasing b ∧ ∀ x ∈ a, ∀ y ∈ b, x.1 < y.1 :=
  List.pairwise_append

theorem cons_iff {x : Nat × Char} :
    Increasing (x :: b) ↔ (∀ y ∈ b, x.1 < y.1) ∧ Increasing b :=
  List.pairwise_cons

/-- **A place cuts the characters in two.** -/
theorem exists_split (h : Increasing shown) (o : Nat) :
    ∃ a b, shown = a ++ b ∧ (∀ x ∈ a, x.1 ≤ o) ∧ ∀ x ∈ b, o < x.1 := by
  induction shown with
  | nil => exact ⟨[], [], rfl, by simp, by simp⟩
  | cons x shown ih =>
    obtain ⟨hx, h⟩ := cons_iff.mp h
    rcases Nat.lt_or_ge o x.1 with ho | ho
    · refine ⟨[], x :: shown, rfl, by simp, ?_⟩
      rw [List.forall_mem_cons]
      exact ⟨ho, fun y hy => Nat.lt_trans ho (hx y hy)⟩
    · obtain ⟨a, b, rfl, ha, hb⟩ := ih h
      exact ⟨x :: a, b, rfl, List.forall_mem_cons.mpr ⟨ho, ha⟩, hb⟩

/-- **Every place holds one character at most.** -/
theorem eq_of_append {a' b' : List (Nat × Char)} {o : Nat} {c c' : Char}
    (h : Increasing (a ++ (o, c) :: b)) (heq : a ++ (o, c) :: b = a' ++ (o, c') :: b') :
    a = a' := by
  have h' := heq ▸ h
  obtain ⟨-, hb, ha⟩ := append_iff.mp h
  obtain ⟨-, hb', ha'⟩ := append_iff.mp h'
  rcases List.append_eq_append_iff.mp heq with ⟨more, rfl, hmore⟩ | ⟨more, rfl, hmore⟩
  · cases more with
    | nil => rw [List.append_nil]
    | cons x more =>
      obtain ⟨rfl, -⟩ := List.cons.inj hmore
      exact absurd (ha' (o, c) (by simp) (o, c') (by simp)) (Nat.lt_irrefl _)
  · cases more with
    | nil => rw [List.append_nil]
    | cons x more =>
      obtain ⟨rfl, -⟩ := List.cons.inj hmore
      exact absurd (ha (o, c') (by simp) (o, c) (by simp)) (Nat.lt_irrefl _)

end Increasing

/-! ## Counting brackets -/

/-- How many of some characters stand from one place to another, both included. -/
def countBetween (cs : List Char) (shown : List (Nat × Char)) (first last : Nat) : Nat :=
  shown.countP fun x => cs.contains x.2 && decide (first ≤ x.1 ∧ x.1 ≤ last)

/-- How many of some characters there are. -/
def countOf (cs : List Char) (shown : List (Nat × Char)) : Nat :=
  shown.countP fun x => cs.contains x.2

theorem countOf_append (cs : List Char) (a b : List (Nat × Char)) :
    countOf cs (a ++ b) = countOf cs a + countOf cs b :=
  List.countP_append

theorem countOf_cons (cs : List Char) (x : Nat × Char) (a : List (Nat × Char)) :
    countOf cs (x :: a) = countOf cs a + if x.2 ∈ cs then 1 else 0 := by
  simp [countOf, List.countP_cons]

/-- No bracket both opens and closes. -/
theorem notMem_closingBrackets {c : Char} (h : c ∈ openingBrackets) : c ∉ closingBrackets := by
  intro hc
  have := isOpening_eq_false_of_isClosing (isClosing_iff.mpr hc)
  rw [isOpening_iff.mpr h] at this
  exact Bool.noConfusion this

/-- **Counting from a character to a place** is counting the character and what stands
behind it up to that place. -/
theorem countBetween_eq (cs : List Char) {front part rest : List (Nat × Char)} {p last : Nat}
    {b : Char} (hs : Increasing (front ++ ((p, b) :: part ++ rest))) (hp : p ≤ last)
    (hpart : ∀ x ∈ part, x.1 ≤ last) (hrest : ∀ x ∈ rest, last < x.1) :
    countBetween cs (front ++ ((p, b) :: part ++ rest)) p last = countOf cs ((p, b) :: part) := by
  obtain ⟨-, hback, hfront⟩ := Increasing.append_iff.mp hs
  have hbehind := (Increasing.cons_iff.mp (List.cons_append ▸ hback)).1
  have hf : countBetween cs front p last = 0 := by
    refine List.countP_eq_zero.mpr fun x hx => ?_
    have := hfront x hx (p, b) (by simp)
    simp only [Bool.and_eq_true, decide_eq_true_eq, not_and]
    dsimp only at this
    omega
  have hr : countBetween cs rest p last = 0 := by
    refine List.countP_eq_zero.mpr fun x hx => ?_
    have := hrest x hx
    simp only [Bool.and_eq_true, decide_eq_true_eq, not_and]
    omega
  have hm : countBetween cs ((p, b) :: part) p last = countOf cs ((p, b) :: part) := by
    refine List.countP_congr fun x hx => ?_
    have hx : p ≤ x.1 ∧ x.1 ≤ last := by
      rcases List.mem_cons.mp hx with rfl | hx
      · exact ⟨Nat.le_refl p, hp⟩
      · exact ⟨Nat.le_of_lt (hbehind x (List.mem_append_left _ hx)), hpart x hx⟩
    simp [hx]
  unfold countBetween at *
  rw [List.countP_append, List.countP_append, hf, hr, hm]
  omega

/-! ## Unnested places -/

/-- **An unnested place**: every opening bracket in front of it is made up for in front
of it. -/
def Unnested (shown : List (Nat × Char)) (o : Nat) : Prop :=
  ∀ p c, (p, c) ∈ shown → c ∈ openingBrackets → p < o →
    ∃ q, p < q ∧ q < o
      ∧ countBetween openingBrackets shown p q ≤ countBetween closingBrackets shown p q

/-- The depth behind some characters. -/
def depthOf (depth : Nat) (shown : List (Nat × Char)) : Nat :=
  shown.foldl (fun depth x => depthAfter depth x.2) depth

@[simp] theorem depthOf_nil (depth : Nat) : depthOf depth [] = depth := rfl

@[simp] theorem depthOf_cons (depth : Nat) (x : Nat × Char) (shown : List (Nat × Char)) :
    depthOf depth (x :: shown) = depthOf (depthAfter depth x.2) shown := rfl

/-- **The depth is zero exactly when no end of the text has more opening brackets than
closing ones**, the levels that were open in front of the text counted in. -/
theorem depthOf_eq_zero_iff (shown : List (Nat × Char)) (depth : Nat) :
    depthOf depth shown = 0 ↔
      depth + countOf openingBrackets shown ≤ countOf closingBrackets shown
        ∧ ∀ t, t <:+ shown → countOf openingBrackets t ≤ countOf closingBrackets t := by
  induction shown generalizing depth with
  | nil =>
    simp only [depthOf_nil, List.suffix_nil, forall_eq]
    simp [countOf]
  | cons x shown ih =>
    rw [depthOf_cons, ih]
    simp only [List.suffix_cons_iff, forall_eq_or_imp, countOf_cons]
    have hself : (∀ t, t <:+ shown → countOf openingBrackets t ≤ countOf closingBrackets t) →
        countOf openingBrackets shown ≤ countOf closingBrackets shown :=
      fun h => h shown List.suffix_rfl
    by_cases hopen : x.2 ∈ openingBrackets
    · rw [depthAfter, isOpening_iff.mpr hopen, if_pos rfl, if_pos hopen,
        if_neg (notMem_closingBrackets hopen)]
      constructor <;> rintro ⟨h₁, h₂⟩
      · exact ⟨by omega, by omega, h₂⟩
      · exact ⟨by omega, h₂.2⟩
    · have hopen' : isOpening x.2 = false := by
        rw [← Bool.not_eq_true, isOpening_iff]
        exact hopen
      rw [depthAfter, hopen', if_neg Bool.false_ne_true, if_neg hopen]
      by_cases hclose : x.2 ∈ closingBrackets
      · rw [isClosing_iff.mpr hclose, if_pos rfl, if_pos hclose]
        constructor <;> rintro ⟨h₁, h₂⟩
        · exact ⟨by omega, by omega, h₂⟩
        · have := hself h₂.2
          exact ⟨by omega, h₂.2⟩
      · have hclose' : isClosing x.2 = false := by
          rw [← Bool.not_eq_true, isClosing_iff]
          exact hclose
        rw [hclose', if_neg Bool.false_ne_true, if_neg hclose]
        constructor <;> rintro ⟨h₁, h₂⟩
        · exact ⟨by omega, by omega, h₂⟩
        · exact ⟨by omega, h₂.2⟩

section

variable {before after : List (Nat × Char)} {o : Nat} {c : Char}

/-- At depth zero every opening bracket has been made up for. -/
theorem unnested_of_depthOf (hs : Increasing (before ++ (o, c) :: after))
    (h : depthOf 0 before = 0) : Unnested (before ++ (o, c) :: after) o := by
  obtain ⟨-, htail⟩ := (depthOf_eq_zero_iff before 0).mp h
  obtain ⟨hbefore, hafter, hlt⟩ := Increasing.append_iff.mp hs
  intro p b hp hb hpo
  -- the bracket stands in front of the place
  have hmem : (p, b) ∈ before := by
    rcases List.mem_append.mp hp with hp | hp
    · exact hp
    · rcases List.mem_cons.mp hp with heq | hp
      · obtain ⟨rfl, -⟩ := Prod.mk.inj heq
        exact absurd hpo (Nat.lt_irrefl _)
      · exact absurd (Nat.lt_trans hpo ((Increasing.cons_iff.mp hafter).1 _ hp))
          (Nat.lt_irrefl _)
  obtain ⟨front, back, rfl⟩ := List.append_of_mem hmem
  have hcount := htail _ (List.suffix_append front ((p, b) :: back))
  obtain ⟨-, hback, -⟩ := Increasing.append_iff.mp hbefore
  obtain ⟨d, hd⟩ : ∃ d, d ∈ back := by
    refine List.exists_mem_of_ne_nil _ ?_
    rintro rfl
    rw [countOf_cons, countOf_cons, if_pos hb, if_neg (notMem_closingBrackets hb)] at hcount
    simp [countOf] at hcount
  have hpd := (Increasing.cons_iff.mp hback).1 d hd
  have hdo := hlt d (by simp [hd]) (o, c) List.mem_cons_self
  dsimp only at hpd hdo
  -- right in front of the place all that stands behind the bracket has been counted
  have hall : ∀ cs, countBetween cs (front ++ (p, b) :: back ++ (o, c) :: after) p (o - 1)
      = countOf cs ((p, b) :: back) := by
    intro cs
    rw [List.append_assoc] at hs ⊢
    refine countBetween_eq cs hs (by omega) (fun x hx => ?_) fun x hx => ?_
    · have := hlt x (by simp [hx]) (o, c) List.mem_cons_self
      dsimp only at this
      omega
    · rcases List.mem_cons.mp hx with rfl | hx
      · dsimp only
        omega
      · have := (Increasing.cons_iff.mp hafter).1 x hx
        dsimp only at this
        omega
  exact ⟨o - 1, by omega, by omega, by rw [hall, hall]; exact hcount⟩

/-- Where every opening bracket has been made up for, no end of what stands in front has
more opening brackets than closing ones. -/
theorem countOf_le_of_unnested (hs : Increasing (before ++ (o, c) :: after))
    (h : Unnested (before ++ (o, c) :: after) o) (t : List (Nat × Char)) (ht : t <:+ before) :
    countOf openingBrackets t ≤ countOf closingBrackets t := by
  obtain ⟨hbefore, hafter, hlt⟩ := Increasing.append_iff.mp hs
  induction hn : t.length using Nat.strongRecOn generalizing t with
  | ind n ih =>
    match t with
    | [] => simp [countOf]
    | (p, b) :: t =>
      obtain ⟨front, hbefore'⟩ := ht
      have hmem : (p, b) ∈ before := by simp [← hbefore']
      by_cases hb : b ∈ openingBrackets
      · -- the bracket is made up for at `q`, and what stands behind `q` is a shorter end
        obtain ⟨q, hpq, hqo, hcount⟩ :=
          h p b (by simp [hmem]) hb (hlt (p, b) hmem (o, c) List.mem_cons_self)
        rw [← hbefore'] at hbefore
        obtain ⟨-, hback, -⟩ := Increasing.append_iff.mp hbefore
        obtain ⟨upTo, beyond, rfl, hupTo, hbeyond⟩ :=
          (Increasing.cons_iff.mp hback).2.exists_split q
        have hall : ∀ cs, countBetween cs (before ++ (o, c) :: after) p q
            = countOf cs ((p, b) :: upTo) := by
          intro cs
          have hshown : before ++ (o, c) :: after
              = front ++ ((p, b) :: upTo ++ (beyond ++ (o, c) :: after)) := by
            rw [← hbefore']
            simp
          rw [hshown] at hs ⊢
          refine countBetween_eq cs hs (Nat.le_of_lt hpq) hupTo fun x hx => ?_
          rcases List.mem_append.mp hx with hx | hx
          · exact hbeyond x hx
          · rcases List.mem_cons.mp hx with rfl | hx
            · exact hqo
            · exact Nat.lt_trans hqo ((Increasing.cons_iff.mp hafter).1 x hx)
        rw [hall, hall] at hcount
        have hrest := ih beyond.length (by simp at hn; omega) beyond
          ⟨front ++ (p, b) :: upTo, by rw [← hbefore']; simp⟩ rfl
        rw [← List.cons_append, countOf_append, countOf_append]
        omega
      · have := ih t.length (by simp at hn; omega) t
          ⟨front ++ [(p, b)], by rw [← hbefore']; simp⟩ rfl
        rw [countOf_cons, countOf_cons, if_neg hb]
        omega

/-- **The unnested places are those at depth zero.** -/
theorem unnested_iff (hs : Increasing (before ++ (o, c) :: after)) :
    Unnested (before ++ (o, c) :: after) o ↔ depthOf 0 before = 0 := by
  refine ⟨fun h => ?_, unnested_of_depthOf hs⟩
  have htail := countOf_le_of_unnested hs h
  exact (depthOf_eq_zero_iff before 0).mpr
    ⟨by rw [Nat.zero_add]; exact htail before List.suffix_rfl, htail⟩

end

/-! ## The depth behind a text -/

/-- How many brackets are open behind a text, the three kinds on one depth. -/
def depthBehind (s : List Char) : Nat :=
  s.foldl depthAfter 0

@[simp] theorem depthBehind_nil : depthBehind [] = 0 := rfl

@[simp] theorem depthBehind_concat (s : List Char) (c : Char) :
    depthBehind (s ++ [c]) = depthAfter (depthBehind s) c := by
  rw [depthBehind, List.foldl_append]
  rfl

end TestScaffold.Scan
