import TestScaffold.Document.Using
import TestScaffold.Proofs.Text.Spacing
/-!
# Lines of a document

A document that is put together from lines has these lines (`HasLines.rawLines_eq`), and the
text between two places in one of them is cut out of that line alone (`HasLines.slice_eq`).
-/

namespace TestScaffold.Source

open Text

/-- **A document is made of some lines**, with line feeds between them and no other ends of
lines in them. -/
structure HasLines (s : Source) (lines : List (List Char)) : Prop where
  /-- There is a line. -/
  ne : lines ≠ []
  /-- The text is made of the lines. -/
  text_eq : s.text = List.intercalate ['\n'] lines
  /-- No line ends within itself. -/
  plain : ∀ line ∈ lines, '\n' ∉ line ∧ '\r' ∉ line

/-- Lines are told apart by the line feeds between them. -/
theorem splitWhere_intercalate {lines : List (List Char)} (hne : lines ≠ [])
    (h : ∀ line ∈ lines, '\n' ∉ line) :
    splitWhere (· == '\n') (List.intercalate ['\n'] lines) = lines := by
  have hline : ∀ line ∈ lines, splitWhere (· == '\n') line = [line] := fun line hmem =>
    splitWhere_of_none fun _ hc => beq_eq_false_iff_ne.mpr fun heq => h line hmem (heq ▸ hc)
  induction lines with
  | nil => exact absurd rfl hne
  | cons line lines ih =>
    cases lines with
    | nil => rw [List.intercalate_singleton, hline line (.head _)]
    | cons next lines =>
      rw [List.intercalate_cons_cons, List.append_assoc, List.singleton_append,
        splitWhere_append_cons _ _ rfl, hline line (.head _),
        ih (List.cons_ne_nil _ _) (fun l hl => h l (.tail _ hl)) fun l hl => hline l (.tail _ hl)]
      rfl

/-- **A line begins behind the lines in front of it**, each with its line feed. -/
theorem lineStart_eq_length (s : Source) (index : Nat) :
    s.lineStart index = ((s.rawLines.take index).flatMap (· ++ ['\n'])).length := by
  rw [lineStart]
  induction s.rawLines.take index with
  | nil => rfl
  | cons line lines ih =>
    rw [List.foldr_cons, ih, List.flatMap_cons, List.length_append, List.length_append]
    rfl

/-- A line without carriage returns loses none. -/
theorem dropReturns_eq {line : List Char} (h : '\r' ∉ line) : dropReturns line = line := by
  induction line with
  | nil => rfl
  | cons c line ih =>
    have hc : c ≠ '\r' := fun heq => h (heq ▸ .head _)
    have hrest : dropReturns line = line := ih fun hmem => h (.tail _ hmem)
    unfold dropReturns at hrest ⊢
    rw [List.foldr_cons, hrest, beq_eq_false_iff_ne.mpr hc, Bool.and_false]
    rfl

namespace HasLines

variable {s : Source} {lines before after : List (List Char)} {line : List Char}

theorem rawLines_eq (h : s.HasLines lines) : s.rawLines = lines := by
  rw [rawLines, h.text_eq]
  exact splitWhere_intercalate h.ne fun line hline => (h.plain line hline).1

theorem lines_eq (h : s.HasLines lines) : s.lines = lines := by
  rw [Source.lines, h.rawLines_eq]
  exact (List.map_congr_left fun line hline => dropReturns_eq (h.plain line hline).2).trans
    (List.map_id _)

/-- A line begins behind those in front of it. -/
theorem lineStart_eq (h : s.HasLines (before ++ after)) :
    s.lineStart before.length = (before.flatMap (· ++ ['\n'])).length := by
  rw [lineStart_eq_length, h.rawLines_eq, List.take_left]

/-- The offset of a place in a line. -/
theorem offset?_eq (h : s.HasLines (before ++ line :: after)) {p : Position}
    (hline : p.line.toNat = before.length) (hle : p.character.toNat ≤ line.length) :
    s.offset? p = some ((before.flatMap (· ++ ['\n'])).length + p.character.toNat) := by
  have hfound : s.line? before.length = some line := by
    rw [line?, h.lines_eq, List.getElem?_append_right (Nat.le_refl _), Nat.sub_self]
    rfl
  rw [offset?, hline, hfound, Option.map_some, h.lineStart_eq, Nat.min_eq_left hle]

/-- **What stands between two places in a line** is cut out of that line. -/
theorem slice_eq (h : s.HasLines (before ++ line :: after)) {start stop : Position}
    (hstart : start.line.toNat = before.length) (hstop : stop.line.toNat = before.length)
    (hle : start.character.toNat ≤ stop.character.toNat)
    (hend : stop.character.toNat ≤ line.length) :
    s.slice start stop
      = .ok ((line.take stop.character.toNat).drop start.character.toNat) := by
  obtain ⟨rest, hrest⟩ : ∃ rest, List.intercalate ['\n'] (line :: after) = line ++ rest := by
    cases after with
    | nil => exact ⟨[], by simp⟩
    | cons next after => exact ⟨_, List.intercalate_cons_cons .. ▸ List.append_assoc ..⟩
  have htext : s.text = before.flatMap (· ++ ['\n']) ++ (line ++ rest) := by
    rw [h.text_eq, intercalate_append (List.cons_ne_nil _ _), hrest]
  rw [slice, h.offset?_eq hstart (hle.trans hend), h.offset?_eq hstop hend]
  dsimp only
  rw [if_neg (by omega), htext, List.take_append, List.drop_append]
  congr 1
  rw [List.take_of_length_le (by omega), List.drop_of_length_le (by omega), Nat.add_sub_cancel_left,
    Nat.add_sub_cancel_left, List.nil_append, List.take_append_of_le_length hend]

end HasLines

end TestScaffold.Source
