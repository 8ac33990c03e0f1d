/-!
# Cutting texts

A cut splits a text in two and drops what it was cut at. All positions in this
library are cuts: they cannot point inside a character or past the end, and
what stood before and after the cut is at hand. Byte offsets, which callers
see, are the UTF-8 lengths of what stands before.
-/

namespace TestScaffold.Text

/-! ## At an element -/

/-- Cut at the first element satisfying `p`. -/
def cutWhere? {α : Type} (p : α → Bool) : List α → Option (List α × List α)
  | [] => none
  | a :: rest =>
    if p a then some ([], rest)
    else (cutWhere? p rest).map fun (before, after) => (a :: before, after)

/-- Cut at the last element satisfying `p`. -/
def cutLastWhere? {α : Type} (p : α → Bool) : List α → Option (List α × List α)
  | [] => none
  | a :: rest =>
    match cutLastWhere? p rest with
    | some (before, after) => some (a :: before, after)
    | none => if p a then some ([], rest) else none

/-! ## At a word -/

/-- What follows `word` in a text that begins with it. -/
def stripStart? : List Char → List Char → Option (List Char)
  | [], text => some text
  | _ :: _, [] => none
  | w :: word, c :: text => if w = c then stripStart? word text else none

/-- Cut at the first place where `word` stands. The empty word stands at the
very beginning. -/
def cutAt? (word : List Char) : List Char → Option (List Char × List Char)
  | [] => if word.isEmpty then some ([], []) else none
  | c :: rest =>
    match stripStart? word (c :: rest) with
    | some after => some ([], after)
    | none => (cutAt? word rest).map fun (before, after) => (c :: before, after)

/-- Cut at the last place where `word` stands. -/
def cutLastAt? (word : List Char) : List Char → Option (List Char × List Char)
  | [] => if word.isEmpty then some ([], []) else none
  | c :: rest =>
    match cutLastAt? word rest with
    | some (before, after) => some (c :: before, after)
    | none => (stripStart? word (c :: rest)).map ([], ·)

/-- Whether `word` stands anywhere in the text. -/
def contains (word text : List Char) : Bool :=
  (cutAt? word text).isSome

/-- The pieces of a text between the occurrences of a non-empty `word`, which
are found from left to right and do not overlap. The number says how many
characters of an occurrence are still to be skipped. -/
def splitAtSkipping (word : List Char) : Nat → List Char → List (List Char)
  | _, [] => [[]]
  | skip + 1, _ :: rest => splitAtSkipping word skip rest
  | 0, c :: rest =>
    if (stripStart? word (c :: rest)).isSome then
      [] :: splitAtSkipping word (word.length - 1) rest
    else (splitAtSkipping word 0 rest).modifyHead (c :: ·)

/-- The pieces of a text between the occurrences of a non-empty `word`. -/
def splitAt (word text : List Char) : List (List Char) :=
  splitAtSkipping word 0 text

/-! ## At a byte -/

/-- The length of a text in UTF-8. -/
def byteLength (text : List Char) : Nat :=
  text.foldr (fun c length => c.utf8Size + length) 0

/-- Cut in front of the byte at `offset`; `none` when the offset lies inside a
character or past the end. -/
def cutAtByte? (offset : Nat) : List Char → Option (List Char × List Char)
  | [] => if offset = 0 then some ([], []) else none
  | c :: rest =>
    if offset = 0 then some ([], c :: rest)
    else if c.utf8Size ≤ offset then
      (cutAtByte? (offset - c.utf8Size) rest).map
        fun (before, after) => (c :: before, after)
    else none

/-! ## Small facts -/

@[simp]
theorem byteLength_nil : byteLength [] = 0 := rfl

@[simp]
theorem byteLength_cons (c : Char) (text : List Char) :
    byteLength (c :: text) = c.utf8Size + byteLength text := rfl

@[simp]
theorem byteLength_append (a b : List Char) :
    byteLength (a ++ b) = byteLength a + byteLength b := by
  induction a with
  | nil => simp
  | cons c a ih => simp [ih, Nat.add_assoc]

/-- **Stripping takes the word away and nothing else.** -/
theorem stripStart?_eq_some_iff {word text rest : List Char} :
    stripStart? word text = some rest ↔ text = word ++ rest := by
  induction word generalizing text with
  | nil => simp [stripStart?]
  | cons w word ih =>
    cases text with
    | nil => simp [stripStart?]
    | cons c text =>
      by_cases h : w = c
      · simp [stripStart?, h, ih]
      · simp [stripStart?, h, Ne.symm h]

/-- **A cut at a word loses that word and nothing else.** -/
theorem eq_append_of_cutAt? {word : List Char} :
    ∀ {text before after : List Char},
      cutAt? word text = some (before, after) → text = before ++ (word ++ after)
  | [], before, after, h => by
    unfold cutAt? at h
    split at h
    · next hw =>
      cases h
      simpa using hw
    · simp at h
  | c :: rest, before, after, h => by
    unfold cutAt? at h
    split at h
    · next tail hs =>
      cases h
      simpa using stripStart?_eq_some_iff.mp hs
    · obtain ⟨⟨b, a⟩, hb, he⟩ := Option.map_eq_some_iff.mp h
      cases he
      rw [List.cons_append, ← eq_append_of_cutAt? hb]

/-- **A cut loses one element.** What stands before, an element satisfying `p`
and what stands after are the whole list. -/
theorem eq_append_of_cutWhere? {α : Type} {p : α → Bool} :
    ∀ {l before after : List α}, cutWhere? p l = some (before, after) →
      ∃ a, p a = true ∧ l = before ++ a :: after
  | [], _, _, h => by simp [cutWhere?] at h
  | a :: rest, before, after, h => by
    rw [cutWhere?] at h
    split at h
    · next hp =>
      cases h
      exact ⟨a, hp, rfl⟩
    · obtain ⟨⟨b, r⟩, hr, hb⟩ := Option.map_eq_some_iff.mp h
      cases hb
      obtain ⟨x, hx, rfl⟩ := eq_append_of_cutWhere? hr
      exact ⟨x, hx, rfl⟩

end TestScaffold.Text
