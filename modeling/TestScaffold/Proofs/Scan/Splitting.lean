import TestScaffold.Proofs.Scan.Segment
import TestScaffold.Proofs.Scan.TopLevel
/-!
# Splitting a text

Splitting cuts a text at the delimiters of its top level and trims what is between
them. This module says what that keeps, for every text: also for one that nobody has
written in segments, with brackets that are never closed or a literal that is never
ended.

*Nothing is lost*: the pieces with the delimiter between them are the text, and the
delimiters stand where the reader meets them (`gapsFrom_pieces`). *Splitting is
stable*: a segment that is split again stays whole, and segments that are joined by the
delimiter are split into themselves (`split_lossless_and_stable`).

What carries the second part is that the pieces of a text are `Parted`. All of them but
the last one are segments in the sense of the module before, which leave the reader
settled; the last one may leave it anywhere, but holds no delimiter. Trimming keeps that
(`Parted.map_trim`), for a blank starts the reader afresh in front of a piece and settles
nothing behind it.
-/

namespace TestScaffold.Scan

open Text

/-! ## Where the delimiters stand -/

/-- The byte offsets of the delimiters between some pieces, the first piece standing at
`offset`. -/
def gapsFrom (d : Char) : Nat → List (List Char) → List Nat
  | _, [] => []
  | _, [_] => []
  | offset, p :: q :: ps =>
    (offset + byteLength p) :: gapsFrom d (offset + byteLength p + d.utf8Size) (q :: ps)

/-- The byte offsets at which the reader of a text meets a character at the top level. -/
def metAt (d : Char) (text : List Char) : List Nat :=
  ((topLevelChars text).filter fun x => x.2 == d).map Prod.fst

/-- A character more in the first piece moves all delimiters on. -/
theorem gapsFrom_cons (d c : Char) (offset : Nat) (p : List Char) (ps : List (List Char)) :
    gapsFrom d offset ((c :: p) :: ps) = gapsFrom d (offset + c.utf8Size) (p :: ps) := by
  cases ps with
  | nil => rfl
  | cons q ps => simp only [gapsFrom, byteLength_cons, Nat.add_assoc]

/-- One delimiter stands between two pieces. -/
theorem length_gapsFrom (d : Char) (offset : Nat) {ps : List (List Char)} (hne : ps ≠ []) :
    (gapsFrom d offset ps).length + 1 = ps.length := by
  induction ps generalizing offset with
  | nil => exact absurd rfl hne
  | cons p ps ih =>
    cases ps with
    | nil => rfl
    | cons q ps => rw [gapsFrom, List.length_cons, ih _ (by simp), List.length_cons (a := p)]

theorem map_splitWhere_ne_nil (d : Char) (ms : List (Char × Bool)) :
    (splitWhere (isMark d) ms).map (·.map Prod.fst) ≠ [] := by
  simpa using splitWhere_ne_nil (isMark d) ms

/-- **The pieces with the delimiter between them are the text.** -/
theorem intercalate_splitWhere (d : Char) (ms : List (Char × Bool)) :
    List.intercalate [d] ((splitWhere (isMark d) ms).map (·.map Prod.fst)) = ms.map Prod.fst := by
  induction ms with
  | nil => rfl
  | cons m ms ih =>
    obtain ⟨p, ps, hps⟩ := List.exists_cons_of_ne_nil (splitWhere_ne_nil (isMark d) ms)
    rw [hps, List.map_cons] at ih
    rw [splitWhere, hps]
    split
    · next hm =>
      obtain ⟨-, hd⟩ := Bool.and_eq_true_iff.mp hm
      rw [List.map_cons, List.map_cons, List.map_nil, List.intercalate_cons_cons, ih,
        List.map_cons, beq_iff_eq.mp hd]
      rfl
    · rw [List.modifyHead_cons, List.map_cons, List.map_cons, List.map_cons, ← ih]
      cases ps with
      | nil => rw [List.map_nil, List.intercalate_singleton, List.intercalate_singleton]
      | cons q ps =>
        rw [List.map_cons, List.intercalate_cons_cons, List.intercalate_cons_cons,
          List.append_assoc, List.append_assoc, List.cons_append]

/-- The delimiters stand at the characters that are marked. -/
theorem gapsFrom_splitWhere (d : Char) (offset : Nat) (ms : List (Char × Bool)) :
    gapsFrom d offset ((splitWhere (isMark d) ms).map (·.map Prod.fst))
      = ((offsetsFrom offset ms).filter fun x => x.2 == d).map Prod.fst := by
  induction ms generalizing offset with
  | nil => rfl
  | cons m ms ih =>
    obtain ⟨c, top⟩ := m
    obtain ⟨p, ps, hps⟩ := List.exists_cons_of_ne_nil (splitWhere_ne_nil (isMark d) ms)
    simp only [hps, List.map_cons] at ih
    rw [splitWhere, hps, offsetsFrom]
    split
    · next hm =>
      obtain ⟨rfl, hd⟩ := Bool.and_eq_true_iff.mp hm
      have hcd : c = d := beq_iff_eq.mp hd
      subst hcd
      rw [if_pos rfl, List.filter_cons_of_pos (by simp)]
      -- the first piece is empty, so the delimiter stands at the offset itself
      exact congrArg (offset :: ·) (ih (offset + c.utf8Size))
    · next hm =>
      rw [List.modifyHead_cons, List.map_cons, List.map_cons, gapsFrom_cons, ih]
      cases top with
      | false => rfl
      | true =>
        have hc : (c == d) = false := by simpa [isMark] using hm
        rw [if_pos rfl, List.filter_cons_of_neg (by simp [hc])]

theorem pieces_ne_nil (d : Char) (text : List Char) : pieces d text ≠ [] :=
  map_splitWhere_ne_nil d (marks text)

theorem intercalate_pieces (d : Char) (text : List Char) :
    List.intercalate [d] (pieces d text) = text := by
  rw [pieces, intercalate_splitWhere, map_fst_marks]

/-- **The delimiters between the pieces stand where the reader meets them.** -/
theorem gapsFrom_pieces (d : Char) (text : List Char) :
    gapsFrom d 0 (pieces d text) = metAt d text :=
  gapsFrom_splitWhere d 0 (marks text)

/-! ## Blanks around a piece -/

theorem isSeparator_of_isBlank {c : Char} (h : isBlank c = true) : IsSeparator c := by
  have hne : ∀ x : Char, isBlank x = false → c ≠ x := by
    rintro x hx rfl
    rw [h] at hx
    exact Bool.noConfusion hx
  refine ⟨?_, ?_, hne _ (by decide), hne _ (by decide)⟩
  · simp [isBracket, isOpening, isClosing, hne _ (show isBlank '<' = false by decide),
      hne _ (show isBlank '[' = false by decide), hne _ (show isBlank '(' = false by decide),
      hne _ (show isBlank '>' = false by decide), hne _ (show isBlank ']' = false by decide),
      hne _ (show isBlank ')' = false by decide)]
  · simp [isQuote, hne _ (show isBlank '"' = false by decide),
      hne _ (show isBlank '\'' = false by decide)]

/-- Blanks in front of a text leave the reader where it started. -/
theorem run_blank {b : List Char} (hb : isBlankText b = true) :
    Reader.start.run b = Reader.start := by
  induction b with
  | nil => rfl
  | cons c b ih =>
    rw [isBlankText_cons, Bool.and_eq_true] at hb
    rw [Reader.run_cons, Reader.settled_start.step_separator (isSeparator_of_isBlank hb.1), ih hb.2]

/-- The places that a reader can come to: only a quote opens a literal. -/
def Literal.Proper : Literal → Prop
  | quoted q | escaped q => isQuote q = true
  | code | sigil | closedVerbatim | verbatim => True

theorem Literal.Proper.step {place : Literal} (h : place.Proper) (c : Char) :
    (place.step c).Proper := by
  have houtside : (place.stepOutside c).Proper := by
    unfold Literal.stepOutside
    split
    · split
      · exact rfl
      · exact trivial
    · split
      · exact rfl
      · split
        · exact trivial
        · split <;> exact trivial
  cases place with
  | code => exact houtside
  | sigil => exact houtside
  | closedVerbatim => exact houtside
  | quoted q =>
    rw [Literal.step]
    split
    · exact h
    · split
      · exact trivial
      · exact h
  | escaped q => exact h
  | verbatim =>
    rw [Literal.step]
    split <;> exact trivial

theorem Literal.Proper.run {r : Reader} (h : r.literal.Proper) (s : List Char) :
    (r.run s).literal.Proper := by
  induction s generalizing r with
  | nil => exact h
  | cons c s ih => exact ih (h.step c)

/-- **No blank leads out of a literal.** -/
theorem Literal.Proper.isOutside_of_step {place : Literal} (h : place.Proper) {c : Char}
    (hc : isBlank c = true) (hout : (place.step c).isOutside = true) :
    place.isOutside = true := by
  have hquote := (isSeparator_of_isBlank hc).2.1
  cases place with
  | code => rfl
  | sigil => rfl
  | closedVerbatim => rfl
  | quoted q =>
    have hne : c ≠ q := by
      rintro rfl
      rw [Literal.Proper, hquote] at h
      exact Bool.noConfusion h
    rw [Literal.step, if_neg hne] at hout
    split at hout <;> exact Bool.noConfusion hout
  | escaped q => exact Bool.noConfusion hout
  | verbatim =>
    have hne : c ≠ '"' := by
      rintro rfl
      exact absurd hquote (by decide)
    rw [Literal.step, if_neg hne] at hout
    exact Bool.noConfusion hout

/-- A reader that is settled behind blanks was settled in front of them. -/
theorem settled_of_run_blank {r : Reader} (hr : r.literal.Proper) {b : List Char}
    (hb : isBlankText b = true) (h : (r.run b).Settled) : r.Settled := by
  induction b generalizing r with
  | nil => exact h
  | cons c b ih =>
    rw [isBlankText_cons, Bool.and_eq_true] at hb
    obtain ⟨hout, hdepth⟩ := ih (r := r.step c) (hr.step c) hb.2 h
    have hout' := hr.isOutside_of_step hb.1 hout
    rw [Reader.depth_step_plain hout' (isSeparator_of_isBlank hb.1).1] at hdepth
    exact ⟨hout', hdepth⟩

section Trim

variable {d : Char} {s : List Char}

/-- Trimming brings no delimiter to the top level. -/
theorem unmarked_trim (h : ∀ m ∈ marks s, isMark d m = false) :
    ∀ m ∈ marks (trim s), isMark d m = false := by
  obtain ⟨a, b, ha, -, hs⟩ := exists_eq_append_trim s
  unfold marks at h ⊢
  rw [hs, Reader.marks_append, run_blank ha, Reader.marks_append] at h
  exact fun m hm => h m (by simp [hm])

/-- **A trimmed segment is a segment.** -/
theorem Segment.trim (h : Segment d s) : Segment d (trim s) where
  settled := by
    obtain ⟨a, b, ha, hb, hs⟩ := exists_eq_append_trim s
    have hsettled := h.settled
    rw [hs, Reader.run_append, run_blank ha, Reader.run_append] at hsettled
    exact settled_of_run_blank (Literal.Proper.run (r := Reader.start) trivial _) hb hsettled
  unmarked := unmarked_trim h.unmarked

end Trim

/-! ## Parted pieces -/

/-- **Parted pieces** are told apart by the delimiter between them: every piece but the
last one is a segment, and the last one holds no delimiter at its top level. -/
inductive Parted (d : Char) : List (List Char) → Prop
  | last {p : List Char} (hp : ∀ m ∈ marks p, isMark d m = false) : Parted d [p]
  | cons {p : List Char} {ps : List (List Char)} (hd : IsSeparator d) (hp : Segment d p)
      (hps : Parted d ps) : Parted d (p :: ps)

namespace Parted

variable {d : Char} {ps : List (List Char)}

theorem ne_nil (h : Parted d ps) : ps ≠ [] := by
  cases h <;> exact List.cons_ne_nil _ _

/-- **Parted pieces are cut apart again** when they are joined. -/
theorem pieces_intercalate (h : Parted d ps) : pieces d (List.intercalate [d] ps) = ps := by
  induction h with
  | last hp => rw [List.intercalate_singleton, pieces_of_unmarked hp]
  | cons hd hp hps ih =>
    rw [List.intercalate_cons_of_ne_nil hps.ne_nil, List.append_assoc, List.singleton_append,
      pieces_join hd hp, ih]

theorem map_trim (h : Parted d ps) : Parted d (ps.map trim) := by
  induction h with
  | last hp => exact .last (unmarked_trim hp)
  | cons hd hp _ ih => exact .cons hd hp.trim ih

/-- No part holds a delimiter at its top level. -/
theorem unmarked (h : Parted d ps) : ∀ p ∈ ps, ∀ m ∈ marks p, isMark d m = false := by
  induction h with
  | last hp => exact List.forall_mem_singleton.mpr hp
  | cons _ hp _ ih => exact List.forall_mem_cons.mpr ⟨hp.unmarked, ih⟩

end Parted

/-- A reader meets a character at the top level only when it is settled. -/
theorem settled_of_atTop {r : Reader} {c : Char} (h : r.atTop c = true) :
    r.Settled ∧ isBracket c = false ∧ isQuote c = false := by
  simp only [Reader.atTop, Bool.and_eq_true, beq_iff_eq, Bool.not_eq_true', Bool.or_eq_false_iff]
    at h
  obtain ⟨⟨hout, hdepth⟩, ⟨⟨hopen, hclose⟩, hdouble⟩, hsingle⟩ := h
  exact ⟨⟨hout, hdepth⟩, isBracket_eq_false_iff.mpr ⟨hopen, hclose⟩,
    Bool.or_eq_false_iff.mpr ⟨hdouble, hsingle⟩⟩

/-- A text holds no delimiter at its top level, or there is a first one. -/
theorem unmarked_or_exists_first (d : Char) (r : Reader) (text : List Char) :
    (∀ m ∈ r.marks text, isMark d m = false)
      ∨ ∃ a b, text = a ++ d :: b ∧ (∀ m ∈ r.marks a, isMark d m = false)
        ∧ (r.run a).atTop d = true := by
  induction text generalizing r with
  | nil => exact .inl (by simp)
  | cons c text ih =>
    by_cases hc : isMark d (c, r.atTop c) = true
    · obtain ⟨htop, hd⟩ := Bool.and_eq_true_iff.mp hc
      obtain rfl := beq_iff_eq.mp hd
      exact .inr ⟨[], text, rfl, by simp, htop⟩
    · rw [Bool.not_eq_true] at hc
      rcases ih (r.step c) with hall | ⟨a, b, rfl, ha, htop⟩
      · left
        rw [Reader.marks_cons, List.forall_mem_cons]
        exact ⟨hc, hall⟩
      · refine .inr ⟨c :: a, b, rfl, ?_, htop⟩
        rw [Reader.marks_cons, List.forall_mem_cons]
        exact ⟨hc, ha⟩

/-- **The pieces of a text are parted**, unless the delimiter is part of the mark of a
verbatim literal. -/
theorem parted_pieces {d : Char} (hat : d ≠ '@') (hdollar : d ≠ '$') (text : List Char) :
    Parted d (pieces d text) := by
  induction hn : text.length using Nat.strongRecOn generalizing text with
  | ind n ih =>
    rcases unmarked_or_exists_first d Reader.start text with hall | ⟨a, b, rfl, ha, htop⟩
    · rw [pieces_of_unmarked hall]
      exact .last hall
    · obtain ⟨hsettled, hbracket, hquote⟩ := settled_of_atTop htop
      have hd : IsSeparator d := ⟨hbracket, hquote, hat, hdollar⟩
      rw [pieces_join hd ⟨hsettled, ha⟩]
      refine .cons hd ⟨hsettled, ha⟩ (ih b.length ?_ b rfl)
      rw [List.length_append, List.length_cons] at hn
      omega

/-! ## Splitting -/

/-- **Splitting loses nothing and is stable.** The segments of a text are its trimmed
pieces; the pieces with the delimiter between them are the text, and the delimiters
between them stand exactly where the reader meets one, so that there is one segment more
than these. With any delimiter but those that mark a verbatim literal, moreover, a
segment is its own only segment, and the segments joined by the delimiter are split into
themselves. -/
theorem split_lossless_and_stable (d : Char) (text : List Char) :
    (∃ ps, text = List.intercalate [d] ps ∧ gapsFrom d 0 ps = metAt d text
        ∧ split d text = ps.map trim)
      ∧ (split d text).length = (metAt d text).length + 1
      ∧ (d ≠ '@' → d ≠ '$' →
        (∀ s ∈ split d text, split d s = [s])
          ∧ split d (List.intercalate [d] (split d text)) = split d text) := by
  refine ⟨⟨pieces d text, (intercalate_pieces d text).symm, gapsFrom_pieces d text, rfl⟩, ?_,
    fun hat hdollar => ⟨fun s hs => ?_, ?_⟩⟩
  · rw [← gapsFrom_pieces, length_gapsFrom d 0 (pieces_ne_nil d text), split, List.length_map]
  · obtain ⟨p, hp, rfl⟩ := List.mem_map.mp hs
    have hunmarked := unmarked_trim ((parted_pieces hat hdollar text).unmarked p hp)
    rw [split, pieces_of_unmarked hunmarked, List.map_singleton, trim_trim]
  · have hparted : Parted d (split d text) := (parted_pieces hat hdollar text).map_trim
    -- the segments are trimmed already
    calc split d (List.intercalate [d] (split d text))
        = (split d text).map trim := by rw [split, hparted.pieces_intercalate]
      _ = split d text := by
        rw [split, List.map_map]
        exact List.map_congr_left fun p _ => trim_trim p

/-- A list with a comma in a verbatim literal and, at its end, a literal that is never
closed. -/
def openList : List Char :=
  " @\"a, \"\"b\" ,\t] 'c' , \"d, e ".toList

/-- The open literal stays whole, with the comma in it. -/
theorem split_lossless_and_stable_openList :
    split ',' openList = ["@\"a, \"\"b\"".toList, "] 'c'".toList, "\"d, e".toList]
      ∧ (∀ s ∈ split ',' openList, split ',' s = [s])
      ∧ split ',' (List.intercalate [','] (split ',' openList)) = split ',' openList :=
  ⟨by decide, (split_lossless_and_stable ',' openList).2.2 (by decide) (by decide)⟩

end TestScaffold.Scan
