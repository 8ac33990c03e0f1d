import TestScaffold.Proofs.Declaration.Peel
/-!
# What peeling attributes loses

Peeling takes the complete bracket groups off the front of a text and should leave the
rest. What it takes and what it leaves is never more than the text, and in the same order
(`sublist_peelGroups`), but it can be less.

For the pass notes where the rest begins when a group *opens* and not only when it closes.
So a group that is never closed loses its bracket (`Unclosed`). And a surplus closing bracket
takes the pass below the surface, the level at which the text begins: the first bracket that
opens when it is back there makes it forget what it has read since (`Reopened`).
`peelAttributes_loses_nothing_iff` says that there is no other way to lose anything.
-/

namespace TestScaffold.Declaration

open Scan Text

/-! ## What is taken and what is left -/

theorem groupChars_append (found more : List String) :
    groupChars (found ++ more) = groupChars found ++ groupChars more :=
  List.flatMap_append

/-- The ink of attribute groups is that of their brackets and of what they hold. -/
@[simp] theorem ink_groupChars_cons (a : String) (found : List String) :
    ink (groupChars (a :: found)) = '[' :: (ink a.toList ++ ']' :: ink (groupChars found)) := by
  rw [groupChars_cons, ink_cons_of_not_blank (by decide), ink_append,
    ink_cons_of_not_blank (by decide), ink_cons_of_blank (by decide)]

/-- The ink a pass over attribute groups has read and not dropped: the groups, the bracket
of a group that is still open, and what was read since. -/
def heldInk (depth : Int) (since : List Char) (found : List String) : List Char :=
  ink (groupChars found) ++ ((if 0 < depth then ['['] else []) ++ ink since)

/-- A character that is kept is held. -/
theorem heldInk_concat {depth depth' : Int} (h : 0 < depth ↔ 0 < depth') (since : List Char)
    (found : List String) (c : Char) (s : List Char) :
    heldInk depth' (since ++ [c]) found ++ ink s = heldInk depth since found ++ ink (c :: s) := by
  have hink : ink (c :: s) = ink [c] ++ ink s := ink_append [c] s
  simp only [heldInk, h, hink, ink_append, List.append_assoc]

/-- **Nothing is added and nothing moves**: what a pass takes and what it leaves, put
together, is part of what it reads, in the same order. -/
theorem sublist_peelGroups (depth : Int) (since : List Char) (found : List String)
    (text : List Char) :
    (ink (groupChars (peelGroups depth since found text).2)
      ++ ink (peelGroups depth since found text).1).Sublist
        (heldInk depth since found ++ ink text) := by
  fun_induction peelGroups depth since found text with
  | case1 depth since found =>
    rw [ink_nil, List.append_nil]
    exact (List.sublist_append_right _ _).append_left _
  | case2 since found rest ih =>
    -- the group begins, and what was read since the last one is dropped
    have hbegin : heldInk 1 [] found ++ ink rest = heldInk 0 [] found ++ ink ('[' :: rest) := by
      rw [ink_cons_of_not_blank (by decide)]
      simp [heldInk]
    rw [hbegin] at ih
    refine ih.trans (List.Sublist.append_right ?_ _)
    simp [heldInk]
  | case3 depth since found rest hdepth ih =>
    have hlevel : 0 < depth ↔ 0 < depth + 1 := by omega
    rwa [heldInk_concat hlevel] at ih
  | case4 since found rest _ ih =>
    -- the group is taken
    have hend : heldInk 0 [] (found ++ [String.ofList (trim since)]) ++ ink rest
        = heldInk 1 since found ++ ink (']' :: rest) := by
      rw [ink_cons_of_not_blank (by decide)]
      simp [heldInk, groupChars_append]
    rwa [hend] at ih
  | case5 depth since found rest hdepth _ ih =>
    have hlevel : 0 < depth ↔ 0 < depth - 1 := by omega
    rwa [heldInk_concat hlevel] at ih
  | case6 depth since found c rest _ _ h =>
    rw [h.1, ink_append]
    simp [heldInk]
  | case7 depth since found c rest _ _ _ ih =>
    rwa [heldInk_concat Iff.rfl] at ih

/-! ## Complete leading groups -/

/-- **Complete leading groups** with the attributes they hold: balanced groups with nothing
but blanks between them and behind the last one. -/
inductive Led : List String → List Char → Prop
  /-- Blanks. -/
  | blank {b : List Char} (hb : isBlankText b = true) : Led [] b
  /-- A group behind blanks. -/
  | group {b a s : List Char} {found : List String} (hb : isBlankText b = true)
      (ha : Balanced a) (hs : Led found s) :
      Led (String.ofList (trim a) :: found) (b ++ '[' :: (a ++ ']' :: s))

theorem Led.ink_eq {found : List String} {lead : List Char} (h : Led found lead) :
    ink lead = ink (groupChars found) := by
  induction h with
  | blank hb => rw [ink_of_blank hb, groupChars_nil, ink_nil]
  | group hb _ _ ih =>
    rw [ink_append, ink_of_blank hb, List.nil_append, ink_cons_of_not_blank (by decide),
      ink_append, ink_cons_of_not_blank (by decide), ih, ink_groupChars_cons,
      String.toList_ofList, ink_trim]

theorem peelGroups_append_blank {b : List Char} (hb : isBlankText b = true)
    (since : List Char) (found : List String) (s : List Char) :
    peelGroups 0 since found (b ++ s) = peelGroups 0 (since ++ b) found s := by
  induction b generalizing since with
  | nil => rw [List.nil_append, List.append_nil]
  | cons c b ih =>
    rw [isBlankText_cons, Bool.and_eq_true] at hb
    have hopen : c ≠ '[' := ne_of_isBlank hb.1 rfl
    have hclose : c ≠ ']' := ne_of_isBlank hb.1 rfl
    rw [List.cons_append, peelGroups_kept (fun h => absurd h hopen) (fun h => absurd h hclose)
      (fun _ => .inl hb.1), surplus_of_ne hopen hclose, Int.add_zero, ih hb.2, List.append_assoc,
      List.singleton_append]

/-- **Complete leading groups are taken** and nothing but blanks is kept of them. -/
theorem Led.peelGroups_append {found : List String} {lead : List Char} (h : Led found lead)
    {since : List Char} (hsince : isBlankText since = true) (before : List String) :
    ∃ b, isBlankText b = true ∧ ∀ s,
      peelGroups 0 since before (lead ++ s) = peelGroups 0 b (before ++ found) s := by
  induction h generalizing since before with
  | @blank b hb =>
    refine ⟨since ++ b, by simp [hsince, hb], fun s => ?_⟩
    rw [peelGroups_append_blank hb, List.append_nil]
  | @group b a t found hb ha _ ih =>
    obtain ⟨b', hb', hpeel⟩ := ih isBlankText_nil (before ++ [String.ofList (trim a)])
    refine ⟨b', hb', fun s => ?_⟩
    have hshape : b ++ '[' :: (a ++ ']' :: t) ++ s = b ++ '[' :: (a ++ ']' :: (t ++ s)) := by
      simp
    rw [hshape, peelGroups_append_blank hb, peelGroups_group ha, hpeel, List.append_assoc]
    rfl

/-- **Every text has its complete leading groups**: they end with the text, where it begins
plainly, or at a square bracket that is no part of a complete group. -/
theorem exists_led (text : List Char) :
    ∃ found lead tail, Led found lead ∧ text = lead ++ tail
      ∧ ((tail = [] ∨ BeginsPlainly tail) ∨ (∃ s, tail = '[' :: s ∧ Covered 0 s)
        ∨ ∃ s, tail = ']' :: s) := by
  induction hn : text.length using Nat.strongRecOn generalizing text with
  | ind n ih =>
    have hb : isBlankText (text.takeWhile isBlank) = true :=
      isBlankText_iff.mpr fun _ => List.mem_takeWhile_imp
    have htext : text = text.takeWhile isBlank ++ trimStart text :=
      List.takeWhile_append_dropWhile.symm
    have hhead := trimStart_eq_self_iff.mp (List.dropWhile_idempotent isBlank text)
    generalize text.takeWhile isBlank = b at hb htext
    change ∀ c ∈ (trimStart text).head?, isBlank c = false at hhead
    generalize trimStart text = s at htext hhead
    subst htext
    cases s with
    | nil => exact ⟨[], b, [], .blank hb, rfl, .inl (.inl rfl)⟩
    | cons c s =>
      have hc := hhead c rfl
      by_cases hopen : c = '['
      · subst hopen
        rcases covered_or_closes (Int.le_refl 0) s with hcov | ⟨a, t, rfl, ha, hsurplus⟩
        · exact ⟨[], b, '[' :: s, .blank hb, rfl, .inr (.inl ⟨s, rfl, hcov⟩)⟩
        · have hlt : t.length < n := by
            rw [← hn]
            simp only [List.length_append, List.length_cons]
            omega
          obtain ⟨found, lead, tail, hled, rfl, htail⟩ := ih t.length hlt t rfl
          rw [Int.zero_add] at hsurplus
          exact ⟨_, _, tail, .group hb ⟨ha, hsurplus⟩ hled, by simp, htail⟩
      · by_cases hclose : c = ']'
        · subst hclose
          exact ⟨[], b, ']' :: s, .blank hb, rfl, .inr (.inr ⟨s, rfl⟩)⟩
        · exact ⟨[], b, c :: s, .blank hb, rfl, .inl (.inr ⟨c, s, rfl, hc, hopen, hclose⟩)⟩

/-! ## Behind the complete groups -/

/-- Of a group that is left open all but its bracket is kept. -/
theorem peelGroups_open {s : List Char} (h : Covered 0 s) (since : List Char)
    (found : List String) : peelGroups 0 since found ('[' :: s) = (s, found) := by
  have hinside := peelGroups_append_covered h [] found []
  rw [List.append_nil, List.nil_append, peelGroups, Int.zero_add] at hinside
  rw [peelGroups, if_pos rfl, if_pos rfl, hinside]

theorem blank_or_close_of_not_plain {c : Char} {s : List Char}
    (h : ¬ BeginsPlainly (c :: s)) (hopen : c ≠ '[') : isBlank c = true ∨ c = ']' := by
  by_contra hno
  rw [not_or, Bool.not_eq_true] at hno
  exact h ⟨c, s, rfl, hno.1, hopen, hno.2⟩

/-- **A text below the surface**: with `-depth` surplus closing brackets in front of it, the
pass never rises above the surface in it, and begins no code where it is there. -/
structure Astray (depth : Int) (p : List Char) : Prop where
  /-- It never rises above the surface. -/
  le : ∀ q, q <+: p → depth + surplus q ≤ 0
  /-- At the surface no code begins. -/
  bare : ∀ q r, p = q ++ r → depth + surplus q = 0 → ¬ BeginsPlainly r

namespace Astray

variable {depth : Int} {p : List Char} {c : Char}

theorem nonpos (h : Astray depth p) : depth ≤ 0 := by
  simpa using h.le [] List.nil_prefix

theorem nil (h : depth ≤ 0) : Astray depth [] where
  le q hq := by
    rw [List.prefix_nil.mp hq]
    simpa using h
  bare q r hr _ hplain := hplain.ne_nil (List.append_eq_nil_iff.mp hr.symm).2

theorem cons_iff :
    Astray depth (c :: p) ↔
      depth ≤ 0 ∧ (depth = 0 → ¬ BeginsPlainly (c :: p)) ∧ Astray (depth + surplus [c]) p := by
  constructor
  · rintro ⟨hle, hbare⟩
    obtain ⟨hdepth, hle⟩ := forall_prefix_cons.mp hle
    refine ⟨by simpa using hdepth, fun hzero => hbare [] _ rfl (by simpa using hzero), ⟨?_, ?_⟩⟩
    · simpa only [Int.add_assoc, ← surplus_cons] using hle
    · rintro q r rfl hq
      rw [Int.add_assoc, ← surplus_cons] at hq
      exact hbare (c :: q) r rfl hq
  · rintro ⟨hdepth, hhead, hle, hbare⟩
    simp only [Int.add_assoc, ← surplus_cons] at hle hbare
    refine ⟨forall_prefix_cons.mpr ⟨by simpa using hdepth, hle⟩, fun q r hr hq => ?_⟩
    cases q with
    | nil =>
      obtain rfl : c :: p = r := hr
      exact hhead (by simpa using hq)
    | cons d q =>
      obtain ⟨rfl, rfl⟩ := List.cons.inj hr
      exact hbare q r rfl hq

/-- **Back at the surface a bracket opens a group**, and what was read below it is
dropped. -/
theorem peelGroups_append (h : Astray depth p) (hp : depth + surplus p = 0)
    (since : List Char) (found : List String) (s : List Char) :
    peelGroups depth since found (p ++ '[' :: s) = peelGroups 1 [] found s := by
  induction p generalizing depth since with
  | nil =>
    obtain rfl : depth = 0 := by simpa using hp
    rw [List.nil_append, peelGroups, if_pos rfl, if_pos rfl]
  | cons c p ih =>
    obtain ⟨hdepth, hhead, h⟩ := cons_iff.mp h
    rw [surplus_cons, ← Int.add_assoc] at hp
    have hopen : c = '[' → depth ≠ 0 := by
      rintro rfl rfl
      exact absurd h.nonpos (by decide)
    have hplain : depth = 0 → isBlank c = true ∨ c = ']' := fun hzero =>
      blank_or_close_of_not_plain (hhead hzero) fun hc => hopen hc hzero
    rw [List.cons_append, peelGroups_kept hopen (fun _ => by omega) hplain, ih h hp]

end Astray

/-- **Below the surface all is kept** unless a bracket opens at the surface again. -/
theorem astray_or_kept {depth : Int} (hdepth : depth ≤ 0) (since : List Char)
    (found : List String) (t : List Char) :
    (∃ p s, t = p ++ '[' :: s ∧ Astray depth p ∧ depth + surplus p = 0)
      ∨ peelGroups depth since found t = (since ++ t, found) := by
  induction t generalizing depth since with
  | nil => exact .inr (by rw [peelGroups, List.append_nil])
  | cons c t ih =>
    by_cases hopen : c = '[' ∧ depth = 0
    · obtain ⟨rfl, rfl⟩ := hopen
      exact .inl ⟨[], t, rfl, .nil hdepth, rfl⟩
    by_cases hcode : depth = 0 ∧ BeginsPlainly (c :: t)
    · obtain ⟨rfl, hcode⟩ := hcode
      exact .inr (hcode.peelGroups_eq since found)
    have hplain : depth = 0 → isBlank c = true ∨ c = ']' := fun hzero =>
      blank_or_close_of_not_plain (fun h => hcode ⟨hzero, h⟩) fun hc => hopen ⟨hc, hzero⟩
    have hstep : depth + surplus [c] ≤ 0 := by
      rcases surplus_cases c with ⟨rfl, hc⟩ | ⟨-, hc⟩ | ⟨-, -, hc⟩
      · have hne : depth ≠ 0 := fun hzero => hopen ⟨rfl, hzero⟩
        omega
      · omega
      · omega
    rw [peelGroups_kept (fun hc hzero => hopen ⟨hc, hzero⟩) (fun _ => by omega) hplain]
    rcases ih hstep (since ++ [c]) with ⟨p, s, rfl, hp, hzero⟩ | hkept
    · refine .inl ⟨c :: p, s, rfl, Astray.cons_iff.mpr ⟨hdepth, fun h hp => ?_, hp⟩, ?_⟩
      · exact hcode ⟨h, hp.append ('[' :: s)⟩
      · rw [surplus_cons, ← Int.add_assoc]
        exact hzero
    · exact .inr (by rw [hkept, List.append_assoc, List.singleton_append])

/-! ## What is lost -/

/-- **A group is left open**: behind the complete leading groups a bracket opens that the
rest of the text does not close. -/
def Unclosed (text : List Char) : Prop :=
  ∃ found lead s, Led found lead ∧ text = lead ++ '[' :: s ∧ Covered 0 s

/-- **A bracket opens where a surplus closing bracket is made up for**: behind the complete
leading groups a bracket closes, and another one opens at the surface again. -/
def Reopened (text : List Char) : Prop :=
  ∃ found lead p s, Led found lead ∧ text = lead ++ ']' :: (p ++ '[' :: s)
    ∧ Astray (-1) p ∧ surplus p = 1

/-- Where nothing is lost, what is kept is what stands behind the complete leading
groups. -/
theorem peelGroups_eq_of_not_lost {text : List Char} (hopen : ¬ Unclosed text)
    (hreopened : ¬ Reopened text) :
    ∃ found lead tail b, Led found lead ∧ text = lead ++ tail ∧ isBlankText b = true
      ∧ peelGroups 0 [] [] text = (b ++ tail, found) := by
  obtain ⟨found, lead, tail, hled, rfl, htail⟩ := exists_led text
  obtain ⟨b, hb, hpeel⟩ := hled.peelGroups_append isBlankText_nil []
  refine ⟨found, lead, tail, b, hled, rfl, hb, (hpeel tail).trans ?_⟩
  rw [List.nil_append]
  rcases htail with (rfl | hplain) | ⟨s, rfl, hs⟩ | ⟨s, rfl⟩
  · rw [peelGroups, List.append_nil]
  · exact hplain.peelGroups_eq b found
  · exact absurd ⟨found, lead, s, hled, rfl, hs⟩ hopen
  · -- behind a surplus closing bracket
    rcases astray_or_kept (by decide : (-1 : Int) ≤ 0) (b ++ [']']) found s with
      ⟨p, t, rfl, hp, hzero⟩ | hkept
    · exact absurd ⟨found, lead, p, t, hled, rfl, hp, by omega⟩ hreopened
    · rw [peelGroups_kept (by decide) (by decide) (fun _ => .inr rfl)]
      exact hkept.trans (by simp)

/-- What the pass takes and leaves is less than a text that it loses ink of. -/
theorem length_lt_of_lost {text : List Char} (h : Unclosed text ∨ Reopened text) :
    (ink (groupChars (peelGroups 0 [] [] text).2)
      ++ ink (peelGroups 0 [] [] text).1).length < (ink text).length := by
  rcases h with ⟨found, lead, s, hled, rfl, hs⟩ | ⟨found, lead, p, s, hled, rfl, hp, hsurplus⟩
  · obtain ⟨b, -, hpeel⟩ := hled.peelGroups_append isBlankText_nil []
    rw [hpeel, peelGroups_open hs, ink_append, hled.ink_eq, ink_cons_of_not_blank (by decide)]
    simp only [List.nil_append, List.length_append, List.length_cons]
    omega
  · obtain ⟨b, -, hpeel⟩ := hled.peelGroups_append isBlankText_nil []
    have hdrop : peelGroups 0 b found (']' :: (p ++ '[' :: s)) = peelGroups 1 [] found s := by
      rw [peelGroups_kept (by decide) (by decide) (fun _ => .inr rfl)]
      exact hp.peelGroups_append (by omega) _ found s
    have hle := (sublist_peelGroups 1 [] found s).length_le
    rw [hpeel, List.nil_append, hdrop, ink_append, hled.ink_eq,
      ink_cons_of_not_blank (by decide), ink_append, ink_cons_of_not_blank (by decide)]
    simp only [heldInk, ink_nil, List.append_nil, List.length_append, List.length_cons,
      if_pos Int.one_pos, List.length_nil] at hle ⊢
    omega

/-! ## Peeling attributes -/

theorem getD_nonEmpty? (found : List String) : (nonEmpty? found).getD [] = found := by
  cases found with
  | nil => rfl
  | cons => rfl

/-- A text without opening brackets is read to its end like any other. -/
theorem peelAttributes_eq (text : List Char) :
    (peelAttributes text).found = nonEmpty? (peelGroups 0 [] [] text).2
      ∧ trim (peelAttributes text).rest = trim (peelGroups 0 [] [] text).1 := by
  unfold peelAttributes
  split
  · exact ⟨rfl, trim_trim _⟩
  · next hopen =>
    rcases astray_or_kept (Int.le_refl 0) [] [] text with ⟨p, s, rfl, -⟩ | hkept
    · simp at hopen
    · rw [hkept]
      exact ⟨rfl, rfl⟩

/-- The ink of the attributes that were taken, in brackets, and of what is left. -/
def peeledInk (peeled : Peeled) : List Char :=
  ink (groupChars (peeled.found.getD [])) ++ ink peeled.rest

theorem peeledInk_peelAttributes (text : List Char) :
    peeledInk (peelAttributes text) = ink (groupChars (peelGroups 0 [] [] text).2)
      ++ ink (peelGroups 0 [] [] text).1 := by
  obtain ⟨hfound, hrest⟩ := peelAttributes_eq text
  rw [peeledInk, hfound, getD_nonEmpty?, ← ink_trim (peelAttributes text).rest, hrest, ink_trim]

/-- Whether a complete group leads a text. -/
def HasLeadingGroup (text : List Char) : Prop :=
  ∃ b a s, isBlankText b = true ∧ Balanced a ∧ text = b ++ '[' :: (a ++ ']' :: s)

theorem not_hasLeadingGroup {c : Char} (hc : isBlank c = false) (hopen : c ≠ '[')
    (s : List Char) : ¬ HasLeadingGroup (c :: s) := by
  rintro ⟨b, a, t, hb, -, htext⟩
  cases b with
  | nil => exact hopen (List.cons.inj htext).1
  | cons d b =>
    obtain ⟨rfl, -⟩ := List.cons.inj htext
    rw [isBlankText_cons, hc] at hb
    exact Bool.noConfusion hb

/-- **Peeling attributes loses nothing** but in two cases, and never adds or moves anything.
The ink of the attributes, in brackets, and of the rest is that of the text exactly when no
leading group is left open and no bracket opens where a surplus closing bracket is made up
for. In the same cases a text without a complete leading group is left as it is. -/
theorem peelAttributes_loses_nothing_iff (text : List Char) :
    (peeledInk (peelAttributes text)).Sublist (ink text)
      ∧ (ink text = peeledInk (peelAttributes text) ↔ ¬ Unclosed text ∧ ¬ Reopened text)
      ∧ (¬ HasLeadingGroup text →
        ((peelAttributes text).found = none ∧ trim (peelAttributes text).rest = trim text ↔
          ¬ Unclosed text ∧ ¬ Reopened text)) := by
  have hink : ink text = peeledInk (peelAttributes text) ↔ ¬ Unclosed text ∧ ¬ Reopened text := by
    rw [peeledInk_peelAttributes]
    constructor
    · intro heq
      rw [← not_or]
      intro hlost
      exact absurd (congrArg List.length heq) (length_lt_of_lost hlost).ne'
    · rintro ⟨hopen, hreopened⟩
      obtain ⟨found, lead, tail, b, hled, rfl, hb, hpeel⟩ :=
        peelGroups_eq_of_not_lost hopen hreopened
      rw [hpeel, ink_append, ink_append, hled.ink_eq, ink_of_blank hb, List.nil_append]
  refine ⟨?_, hink, fun hgroup => ⟨?_, ?_⟩⟩
  · rw [peeledInk_peelAttributes]
    exact sublist_peelGroups 0 [] [] text
  · rintro ⟨hfound, hrest⟩
    rw [← hink, peeledInk, hfound, ← ink_trim text, ← hrest, ink_trim]
    rfl
  · rintro ⟨hopen, hreopened⟩
    obtain ⟨found, lead, tail, b, hled, rfl, hb, hpeel⟩ :=
      peelGroups_eq_of_not_lost hopen hreopened
    obtain ⟨hfound, hrest⟩ := peelAttributes_eq (lead ++ tail)
    cases hled with
    | blank hlead =>
      rw [hfound, hrest, hpeel, trim_blank_append hb, trim_blank_append hlead]
      exact ⟨rfl, rfl⟩
    | @group b' a s _ hb' ha _ =>
      exact absurd ⟨b', a, s ++ tail, hb', ha, by simp⟩ hgroup

/-- A surplus closing bracket alone does no harm: the brackets behind it open below the
surface. -/
theorem peelAttributes_loses_nothing_iff_stray :
    ¬ HasLeadingGroup "] int[] x".toList
      ∧ (¬ Unclosed "] int[] x".toList ∧ ¬ Reopened "] int[] x".toList)
      ∧ (peelAttributes "] int[] x".toList).found = none
      ∧ trim (peelAttributes "] int[] x".toList).rest = "] int[] x".toList := by
  obtain ⟨-, hink, hrest⟩ := peelAttributes_loses_nothing_iff "] int[] x".toList
  have hgroup : ¬ HasLeadingGroup "] int[] x".toList :=
    not_hasLeadingGroup (by decide) (by decide) _
  have hkept := hink.mp (by decide)
  exact ⟨hgroup, hkept, (hrest hgroup).mpr hkept⟩

/-- **A group that is left open loses its bracket**, and a surplus closing bracket is lost
with the bracket that makes up for it, though no complete group leads either text. -/
theorem brackets_lost :
    (¬ HasLeadingGroup "[Obsolete( public int".toList
      ∧ peelAttributes "[Obsolete( public int".toList = ⟨"Obsolete( public int".toList, none⟩)
      ∧ ¬ HasLeadingGroup "][[a]x".toList
      ∧ peelAttributes "][[a]x".toList = ⟨"x".toList, some ["a"]⟩ := by
  have hopen : ¬ HasLeadingGroup "[Obsolete( public int".toList := by
    rintro ⟨b, a, s, -, -, htext⟩
    have hclose : ']' ∈ "[Obsolete( public int".toList := by
      rw [htext]
      simp
    exact absurd hclose (by decide)
  exact ⟨⟨hopen, by decide⟩, not_hasLeadingGroup (by decide) (by decide) _, by decide⟩

end TestScaffold.Declaration
