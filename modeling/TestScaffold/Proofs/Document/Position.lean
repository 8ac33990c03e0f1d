import Mathlib.Data.List.DropRight
import Mathlib.Order.Monotone.Basic
import TestScaffold.Proofs.Document.Source
/-!
# Places of a document

A position means a place of the text, the offset of which is counted from the beginning. For
places to be compared by their positions, the offsets have to grow with the lines and, within a
line, with the characters. Across lines this rests on what a position behind the end of its line
means: the end of the line, which lies in front of the carriage returns and of the line feed, so
that no place of a line reaches the next one (`Source.offset?_le`).

Offsets that only grow make slices compose, and a slice fails for no other reasons than a
position outside the document or an end in front of the start.
-/

namespace TestScaffold

/-- Positions are ordered by their lines, and those in one line by their characters. -/
instance : LE Position where
  le p q := p.line < q.line ∨ p.line = q.line ∧ p.character ≤ q.character

namespace Text

/-- Fewer characters of a text have fewer bytes. -/
theorem byteLength_take_lt {text : List Char} {m n : Nat} (hlt : m < n) (hn : n ≤ text.length) :
    byteLength (text.take m) < byteLength (text.take n) := by
  obtain ⟨k, rfl⟩ := Nat.exists_eq_add_of_lt hlt
  obtain ⟨c, rest, hrest⟩ := List.exists_cons_of_length_pos (l := (text.drop m).take (k + 1))
    (by rw [List.length_take, List.length_drop]; omega)
  have hc := c.utf8Size_pos
  rw [Nat.add_assoc, List.take_add, hrest, byteLength_append, byteLength_cons]
  omega

/-- Counting bytes in place of characters keeps the order of the places of a text. -/
theorem byteLength_take_le_iff {text : List Char} {m n : Nat} (hm : m ≤ text.length)
    (hn : n ≤ text.length) :
    byteLength (text.take m) ≤ byteLength (text.take n) ↔ m ≤ n := by
  constructor
  · intro h
    by_contra hlt
    exact absurd (byteLength_take_lt (Nat.not_le.mp hlt) hm) (Nat.not_lt.mpr h)
  · intro h
    rcases Nat.lt_or_eq_of_le h with h | rfl
    · exact Nat.le_of_lt (byteLength_take_lt h hn)
    · exact Nat.le_refl _

end Text

open Text

namespace Source

variable (s : Source) {p q r : Position}

/-! ## Lines and what ends them -/

/-- Carriage returns are dropped from the right. -/
theorem dropReturns_eq_rdropWhile (line : List Char) :
    dropReturns line = line.rdropWhile (· == '\r') :=
  foldr_drop_eq_rdropWhile _ line

/-- **The carriage returns at the end of a line** and nothing else are left out of it. -/
theorem exists_returns (line : List Char) :
    ∃ n, line = dropReturns line ++ List.replicate n '\r' := by
  refine ⟨(line.rtakeWhile (· == '\r')).length, ?_⟩
  have hreturns : line.rtakeWhile (· == '\r')
      = List.replicate (line.rtakeWhile (· == '\r')).length '\r' :=
    List.eq_replicate_iff.mpr ⟨rfl, fun c hc => by simpa using List.mem_rtakeWhile_imp hc⟩
  rw [← hreturns, dropReturns_eq_rdropWhile, List.rdropWhile_append_rtakeWhile]

theorem length_dropReturns_le (line : List Char) : (dropReturns line).length ≤ line.length := by
  rw [dropReturns_eq_rdropWhile]
  exact (List.rdropWhile_prefix _ _).length_le

theorem line?_eq (index : Nat) : s.line? index = s.rawLines[index]?.map dropReturns :=
  List.getElem?_map

theorem isSome_line?_iff {index : Nat} : (s.line? index).isSome ↔ index < s.lineCount := by
  rw [line?_eq, Option.isSome_map, lineCount, Option.isSome_iff_exists]
  exact ⟨fun ⟨_, h⟩ => (List.getElem?_eq_some_iff.mp h).1, fun h => ⟨_, List.getElem?_eq_getElem h⟩⟩

/-- A line holds no line feed and does not end with a carriage return. -/
theorem plain_of_mem_lines {line : List Char} (h : line ∈ s.lines) :
    '\n' ∉ line ∧ line.getLast? ≠ some '\r' := by
  obtain ⟨raw, hraw, rfl⟩ := List.mem_map.mp h
  rw [dropReturns_eq_rdropWhile]
  constructor
  · intro hmem
    have := (of_mem_splitWhere hraw _ ((List.rdropWhile_prefix _ _).mem hmem)).2
    simp at this
  · intro hlast
    obtain ⟨hne, heq⟩ := List.mem_getLast?_eq_getLast hlast
    exact List.rdropWhile_last_not _ _ hne (by simp [← heq])

theorem rawLines_ne_nil : s.rawLines ≠ [] :=
  splitWhere_ne_nil _ _

/-- The text is made of its raw lines with line feeds between them. -/
theorem text_eq : s.text = List.intercalate ['\n'] s.rawLines := by
  rw [rawLines, splitWhere_eq_splitOnP]
  exact (List.intercalate_splitOn '\n').symm

/-- Lists with a separator between them, as a sum over the numbers of the lists. -/
theorem intercalate_eq_flatMap_range (lines : List (List Char)) :
    List.intercalate ['\n'] lines = (List.range lines.length).flatMap fun i =>
      lines[i]?.getD [] ++ if i + 1 < lines.length then ['\n'] else [] := by
  induction lines with
  | nil => rfl
  | cons line lines ih =>
    rw [List.length_cons, List.range_succ_eq_map, List.flatMap_cons, List.flatMap_map]
    cases lines with
    | nil => simp
    | cons next lines =>
      rw [List.intercalate_cons_cons, ih]
      simp

/-- **Lines and what ends them give back the text**: each line with its carriage returns, and a
line feed behind each but the last. -/
theorem exists_text_eq : ∃ returns : Nat → Nat,
    s.text = (List.range s.lineCount).flatMap fun i =>
      (s.line? i).getD [] ++ (List.replicate (returns i) '\r'
        ++ if i + 1 < s.lineCount then ['\n'] else []) := by
  choose returns hreturns using exists_returns
  refine ⟨fun i => returns (s.rawLines[i]?.getD []), ?_⟩
  conv_lhs => rw [text_eq, intercalate_eq_flatMap_range]
  refine List.flatMap_congr fun i hi => ?_
  obtain ⟨raw, hraw⟩ : ∃ raw, s.rawLines[i]? = some raw :=
    ⟨_, List.getElem?_eq_getElem (List.mem_range.mp hi)⟩
  have hraw' : raw = dropReturns raw
      ++ List.replicate (returns (s.rawLines[i]?.getD [])) '\r' := by
    rw [hraw]
    exact hreturns raw
  rw [line?_eq, hraw, ← List.append_assoc]
  exact congrArg (· ++ _) hraw'

/-! ## Offsets -/

theorem lineStart_succ {index : Nat} {raw : List Char} (h : s.rawLines[index]? = some raw) :
    s.lineStart (index + 1) = s.lineStart index + (raw.length + 1) := by
  rw [lineStart_eq_length, lineStart_eq_length, List.take_add_one, h, List.flatMap_append,
    List.length_append]
  simp

theorem lineStart_mono : Monotone s.lineStart := by
  intro i j hij
  rw [lineStart_eq_length, lineStart_eq_length]
  obtain ⟨more, hmore⟩ := List.take_prefix_take_left (l := s.rawLines) hij
  rw [← hmore, List.flatMap_append, List.length_append]
  exact Nat.le_add_right _ _

/-- The line behind the last one would begin behind a line feed at the end. -/
theorem lineStart_lineCount : s.lineStart s.lineCount = s.text.length + 1 := by
  rw [lineStart_eq_length, lineCount, List.take_length,
    ← intercalate_append_sep s.rawLines_ne_nil, ← text_eq, List.length_append,
    List.length_singleton]

/-- The offset of a position: the beginning of its line, and its characters as far as the line
goes. -/
theorem offset?_eq_some_iff {n : Nat} :
    s.offset? p = some n ↔ ∃ raw, s.rawLines[p.line.toNat]? = some raw
      ∧ s.lineStart p.line.toNat + min p.character.toNat (dropReturns raw).length = n := by
  rw [offset?, line?_eq, Option.map_map, Option.map_eq_some_iff]
  rfl

theorem isSome_offset?_iff : (s.offset? p).isSome ↔ p.line.toNat < s.lineCount := by
  rw [offset?, Option.isSome_map, isSome_line?_iff]

/-- **A place of a line does not reach the next line.** -/
theorem bounds_of_offset? {n : Nat} (h : s.offset? p = some n) :
    s.lineStart p.line.toNat ≤ n ∧ n < s.lineStart (p.line.toNat + 1) := by
  obtain ⟨raw, hraw, rfl⟩ := s.offset?_eq_some_iff.mp h
  have hlen := length_dropReturns_le raw
  rw [s.lineStart_succ hraw]
  omega

theorem offset?_le_length {n : Nat} (h : s.offset? p = some n) : n ≤ s.text.length := by
  have hline := s.isSome_offset?_iff.mp (Option.isSome_of_eq_some h)
  have hnext := s.lineStart_mono (Nat.succ_le_of_lt hline)
  rw [lineStart_lineCount] at hnext
  exact Nat.lt_succ_iff.mp ((s.bounds_of_offset? h).2.trans_le hnext)

/-- **Offsets grow with positions.** -/
theorem offset?_le (hpq : p ≤ q) {m n : Nat} (hp : s.offset? p = some m)
    (hq : s.offset? q = some n) : m ≤ n := by
  rcases hpq with hlt | ⟨heq, hle⟩
  · have hnext := s.lineStart_mono (Nat.succ_le_of_lt (UInt32.lt_iff_toNat_lt.mp hlt))
    exact (((s.bounds_of_offset? hp).2.trans_le hnext).trans_le (s.bounds_of_offset? hq).1).le
  · obtain ⟨raw, hraw, rfl⟩ := s.offset?_eq_some_iff.mp hp
    obtain ⟨raw', hraw', rfl⟩ := s.offset?_eq_some_iff.mp hq
    obtain rfl : raw = raw' := Option.some.inj (hraw.symm.trans (heq ▸ hraw'))
    have hchar := UInt32.le_iff_toNat_le.mp hle
    rw [heq]
    omega

/-- A position in front of one in the document is in the document. -/
theorem exists_offset?_of_le (hpq : p ≤ q) (hq : q.line.toNat < s.lineCount) :
    ∃ m, s.offset? p = some m := by
  have hle : p.line.toNat ≤ q.line.toNat := by
    rcases hpq with hlt | ⟨heq, -⟩
    · exact (UInt32.lt_iff_toNat_lt.mp hlt).le
    · exact Nat.le_of_eq (congrArg UInt32.toNat heq)
  exact Option.isSome_iff_exists.mp (s.isSome_offset?_iff.mpr (hle.trans_lt hq))

/-! ## Slices -/

/-- What a slice is, by the offsets of its two ends. -/
theorem slice_of_offset? {m n : Nat} (hp : s.offset? p = some m) (hq : s.offset? q = some n) :
    s.slice p q = if n < m then .error (.reversedRange p q)
      else .ok ((s.text.take n).drop m) := by
  rw [slice, hp, hq]

theorem slice_of_le (hpq : p ≤ q) {m n : Nat} (hp : s.offset? p = some m)
    (hq : s.offset? q = some n) : s.slice p q = .ok ((s.text.take n).drop m) := by
  rw [s.slice_of_offset? hp hq, if_neg (Nat.not_lt.mpr (s.offset?_le hpq hp hq))]

/-- **A slice is what stands between its two ends.** -/
theorem exists_of_slice {t : List Char} (h : s.slice p q = .ok t) :
    ∃ before after, s.text = before ++ (t ++ after)
      ∧ s.byteOffset? p = some (byteLength before)
      ∧ s.byteOffset? q = some (byteLength (before ++ t)) := by
  rw [slice] at h
  split at h
  · next m n hp hq =>
    split at h
    · exact absurd h (by simp)
    · next hle =>
      obtain rfl := Except.ok.inj h
      have hm : m ≤ n := Nat.not_lt.mp hle
      have hn := s.offset?_le_length hq
      have htake : s.text.take m ++ (s.text.take n).drop m = s.text.take n := by
        conv_rhs => rw [← List.take_append_drop m (s.text.take n), List.take_take,
          Nat.min_eq_left hm]
      refine ⟨s.text.take m, s.text.drop n, ?_, ?_, ?_⟩
      · rw [← List.append_assoc, htake, List.take_append_drop]
      · rw [byteOffset?, hp, Option.map_some]
      · rw [byteOffset?, hq, Option.map_some, htake]
  · exact absurd h (by simp)

/-- **Slices of neighbouring ranges** are the slice of the whole range. -/
theorem slice_append (hpq : p ≤ q) (hqr : q ≤ r) (hr : r.line.toNat < s.lineCount) :
    ∃ t u, s.slice p q = .ok t ∧ s.slice q r = .ok u ∧ s.slice p r = .ok (t ++ u) := by
  obtain ⟨k, hk⟩ := Option.isSome_iff_exists.mp (s.isSome_offset?_iff.mpr hr)
  obtain ⟨n, hn⟩ := s.exists_offset?_of_le hqr hr
  obtain ⟨m, hm⟩ := s.exists_offset?_of_le hpq (s.isSome_offset?_iff.mp (by simp [hn]))
  have hmn := s.offset?_le hpq hm hn
  have hnk := s.offset?_le hqr hn hk
  have hlen := s.offset?_le_length hn
  refine ⟨_, _, s.slice_of_le hpq hm hn, s.slice_of_le hqr hn hk, ?_⟩
  rw [s.slice_of_offset? hm hk, if_neg (Nat.not_lt.mpr (hmn.trans hnk))]
  congr 1
  conv_lhs => rw [← List.take_append_drop n (s.text.take k), List.take_take, Nat.min_eq_left hnk]
  exact List.drop_append_of_le_length (by rw [List.length_take]; omega)

/-- The text of a line stands where the line begins. -/
theorem exists_text_append {index : Nat} {raw : List Char} (h : s.rawLines[index]? = some raw) :
    ∃ front rest, s.text ++ ['\n'] = front ++ (raw ++ rest)
      ∧ front.length = s.lineStart index := by
  obtain ⟨hlt, rfl⟩ := List.getElem?_eq_some_iff.mp h
  refine ⟨(s.rawLines.take index).flatMap (· ++ ['\n']),
    '\n' :: (s.rawLines.drop (index + 1)).flatMap (· ++ ['\n']), ?_,
    (s.lineStart_eq_length index).symm⟩
  conv_lhs => rw [text_eq, intercalate_append_sep s.rawLines_ne_nil,
    ← List.take_append_drop index s.rawLines, List.drop_eq_getElem_cons hlt, List.flatMap_append,
    List.flatMap_cons]
  rw [List.append_assoc, List.singleton_append]

/-- **A slice from the beginning of a line to a position in it** is the beginning of the line, as
far as the line goes. -/
theorem slice_line {line : List Char} (h : s.line? p.line.toNat = some line) :
    s.slice ⟨p.line, 0⟩ p = .ok (line.take p.character.toNat) := by
  rw [line?_eq, Option.map_eq_some_iff] at h
  obtain ⟨raw, hraw, rfl⟩ := h
  have hle : (⟨p.line, 0⟩ : Position) ≤ p :=
    .inr ⟨rfl, UInt32.le_iff_toNat_le.mpr (Nat.zero_le _)⟩
  have hstart : s.offset? ⟨p.line, 0⟩ = some (s.lineStart p.line.toNat) :=
    s.offset?_eq_some_iff.mpr ⟨raw, hraw, by simp⟩
  have hstop := s.offset?_eq_some_iff.mpr ⟨raw, hraw, rfl⟩
  have hlen := length_dropReturns_le raw
  have hback := s.offset?_le_length hstop
  obtain ⟨front, rest, htext, hfront⟩ := s.exists_text_append hraw
  obtain ⟨k, hk⟩ := exists_returns raw
  -- a line feed more behind the text lets every line end with one
  have htake := (List.take_append_of_le_length hback).symm.trans (congrArg (List.take _) htext)
  rw [s.slice_of_le hle hstart hstop, htake, ← hfront, List.take_length_add_append,
    List.drop_left, List.take_append_of_le_length ((Nat.min_le_right _ _).trans hlen)]
  congr 1
  calc
    raw.take (min p.character.toNat (dropReturns raw).length)
        = (dropReturns raw ++ List.replicate k '\r').take
            (min p.character.toNat (dropReturns raw).length) := congrArg (List.take _) hk
    _ = (dropReturns raw).take (min p.character.toNat (dropReturns raw).length) :=
        List.take_append_of_le_length (Nat.min_le_right _ _)
    _ = (dropReturns raw).take p.character.toNat := (List.take_eq_take_min ..).symm

/-! ## Offsets in bytes -/

theorem isSome_byteOffset?_iff : (s.byteOffset? p).isSome ↔ p.line.toNat < s.lineCount := by
  rw [byteOffset?, Option.isSome_map, isSome_offset?_iff]

/-- An offset in bytes lies between two characters of the text. -/
theorem exists_of_byteOffset? {o : Nat} (h : s.byteOffset? p = some o) :
    ∃ before after, s.text = before ++ after ∧ byteLength before = o := by
  obtain ⟨n, -, rfl⟩ := Option.map_eq_some_iff.mp h
  exact ⟨s.text.take n, s.text.drop n, (List.take_append_drop n s.text).symm, rfl⟩

/-- Bytes and characters agree on the order of two places. -/
theorem byteOffset?_le_iff {m n o o' : Nat} (hp : s.offset? p = some m) (hq : s.offset? q = some n)
    (ho : s.byteOffset? p = some o) (ho' : s.byteOffset? q = some o') : o ≤ o' ↔ m ≤ n := by
  rw [byteOffset?, hp, Option.map_some, Option.some.injEq] at ho
  rw [byteOffset?, hq, Option.map_some, Option.some.injEq] at ho'
  rw [← ho, ← ho']
  exact byteLength_take_le_iff (s.offset?_le_length hp) (s.offset?_le_length hq)

theorem byteOffset?_eq_none_iff : s.byteOffset? p = none ↔ s.offset? p = none :=
  Option.map_eq_none_iff

/-- **A slice fails** for a position outside the document or an end in front of the start, and
the error says which. -/
theorem slice_eq_error_iff {e : DeclarationError} :
    s.slice p q = .error e ↔
      (e = .outsideDocument p q ∧ (s.byteOffset? p = none ∨ s.byteOffset? q = none))
        ∨ (e = .reversedRange p q ∧ ∃ o ∈ s.byteOffset? p, ∃ o' ∈ s.byteOffset? q, o' < o) := by
  simp only [byteOffset?_eq_none_iff]
  cases hp : s.offset? p with
  | none => simp [slice, hp, byteOffset?, eq_comm]
  | some m =>
    cases hq : s.offset? q with
    | none => simp [slice, hp, hq, byteOffset?, eq_comm]
    | some n =>
      have ho : s.byteOffset? p = some (byteLength (s.text.take m)) := by simp [byteOffset?, hp]
      have ho' : s.byteOffset? q = some (byteLength (s.text.take n)) := by simp [byteOffset?, hq]
      have hlt := not_congr (s.byteOffset?_le_iff hp hq ho ho')
      rw [Nat.not_le, Nat.not_le] at hlt
      rw [s.slice_of_offset? hp hq]
      by_cases h : n < m
      · simp [h, hlt.mpr h, ho, ho', eq_comm]
      · simp [h, mt hlt.mp h, ho, ho']

/-! ## Places and slices -/

/-- **Positions are places of the text in the order of their lines and characters.** A position
has an offset exactly in a line of the document, between two characters of the text. Offsets grow
with positions, slices are what stands between two places and compose, and they fail for nothing
but a position outside the document or an end in front of the start. The lines, each with the
carriage returns and the line feed that end it, give back the text. -/
theorem places_and_slices (s : Source) :
    (∀ p, ((s.byteOffset? p).isSome ↔ p.line.toNat < s.lineCount)
      ∧ ∀ o ∈ s.byteOffset? p, ∃ before after, s.text = before ++ after ∧ byteLength before = o)
    ∧ (∀ p q, p ≤ q → q.line.toNat < s.lineCount →
        ∃ o ∈ s.byteOffset? p, ∃ o' ∈ s.byteOffset? q, o ≤ o' ∧ ∃ t, s.slice p q = .ok t)
    ∧ (∀ p q t, s.slice p q = .ok t → ∃ before after, s.text = before ++ (t ++ after)
        ∧ s.byteOffset? p = some (byteLength before)
        ∧ s.byteOffset? q = some (byteLength (before ++ t)))
    ∧ (∀ p line, s.line? p.line.toNat = some line →
        s.slice ⟨p.line, 0⟩ p = .ok (line.take p.character.toNat))
    ∧ (∀ p q r, p ≤ q → q ≤ r → r.line.toNat < s.lineCount →
        ∃ t u, s.slice p q = .ok t ∧ s.slice q r = .ok u ∧ s.slice p r = .ok (t ++ u))
    ∧ (∀ p q e, s.slice p q = .error e ↔
        (e = .outsideDocument p q ∧ (s.byteOffset? p = none ∨ s.byteOffset? q = none))
          ∨ (e = .reversedRange p q ∧ ∃ o ∈ s.byteOffset? p, ∃ o' ∈ s.byteOffset? q, o' < o))
    ∧ (∀ i, (s.line? i).isSome ↔ i < s.lineCount)
    ∧ (∀ line ∈ s.lines, '\n' ∉ line ∧ line.getLast? ≠ some '\r')
    ∧ ∃ returns : Nat → Nat, s.text = (List.range s.lineCount).flatMap fun i =>
        (s.line? i).getD [] ++ (List.replicate (returns i) '\r'
          ++ if i + 1 < s.lineCount then ['\n'] else []) := by
  refine ⟨fun p => ⟨s.isSome_byteOffset?_iff, fun o ho => s.exists_of_byteOffset? ho⟩, ?_,
    fun p q t => s.exists_of_slice, fun p line => s.slice_line, fun p q r => s.slice_append,
    fun p q e => s.slice_eq_error_iff, fun i => s.isSome_line?_iff,
    fun line => s.plain_of_mem_lines, s.exists_text_eq⟩
  intro p q hpq hq
  obtain ⟨n, hn⟩ := Option.isSome_iff_exists.mp (s.isSome_offset?_iff.mpr hq)
  obtain ⟨m, hm⟩ := s.exists_offset?_of_le hpq hq
  have ho : s.byteOffset? p = some (byteLength (s.text.take m)) := by rw [byteOffset?, hm]; rfl
  have ho' : s.byteOffset? q = some (byteLength (s.text.take n)) := by rw [byteOffset?, hn]; rfl
  exact ⟨_, ho, _, ho', (s.byteOffset?_le_iff hm hn ho ho').mpr (s.offset?_le hpq hm hn),
    _, s.slice_of_le hpq hm hn⟩

/-- Two lines of wide characters. The place behind the end of the first one is the end of `é`, in
front of both carriage returns. -/
theorem places_and_slices_wideLines :
    let s : Source := ⟨"é\r\r\n漢字\r".toList⟩
    let p : Position := ⟨0, 7⟩
    let q : Position := ⟨1, 1⟩
    let r : Position := ⟨1, 9⟩
    (p ≤ q ∧ q ≤ r ∧ r.line.toNat < s.lineCount)
      ∧ s.byteOffset? p = some 2 ∧ s.byteOffset? q = some 8 ∧ s.byteOffset? r = some 11
      ∧ (∃ o ∈ s.byteOffset? p, ∃ o' ∈ s.byteOffset? q, o ≤ o' ∧ ∃ t, s.slice p q = .ok t)
      ∧ ∃ t u, s.slice p q = .ok t ∧ s.slice q r = .ok u ∧ s.slice p r = .ok (t ++ u) := by
  intro s p q r
  have hpq : p ≤ q := .inl (by decide)
  have hqr : q ≤ r := .inr ⟨rfl, by decide⟩
  have hq : q.line.toNat < s.lineCount := by decide
  obtain ⟨-, hgrows, -, -, hcompose, -⟩ := places_and_slices s
  exact ⟨⟨hpq, hqr, hq⟩, by decide, by decide, by decide, hgrows p q hpq hq,
    hcompose p q r hpq hqr hq⟩

end Source

end TestScaffold
