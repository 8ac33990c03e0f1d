/-!
# Blank characters

Declarations reach this library with arbitrary white space around and inside
them. A *blank* is a character with the Unicode property White_Space; the zero
width space and the byte order mark are not blanks.

`trim` drops the blanks at both ends of a text, `words` cuts a text at its
blanks, and `normalize` writes the words back with one space between them.
-/

namespace TestScaffold.Text

/-- The characters with the Unicode property White_Space. -/
def isBlank (c : Char) : Bool :=
  let n := c.toNat
  (9 ≤ n && n ≤ 13) || n == 0x20 || n == 0x85 || n == 0xA0 || n == 0x1680
    || (0x2000 ≤ n && n ≤ 0x200A) || n == 0x2028 || n == 0x2029
    || n == 0x202F || n == 0x205F || n == 0x3000

/-- The text without its leading blanks. -/
def trimStart (text : List Char) : List Char :=
  text.dropWhile isBlank

/-- The text without its trailing blanks: a blank stays only in front of
something that stays. -/
def trimEnd (text : List Char) : List Char :=
  text.foldr (fun c rest => if rest.isEmpty && isBlank c then [] else c :: rest) []

/-- The text without the blanks at both ends. -/
def trim (text : List Char) : List Char :=
  trimEnd (trimStart text)

/-- Cut a list at every element satisfying `p`. The elements cut at are
dropped, and `n` cuts give `n + 1` pieces. -/
def splitWhere {α : Type} (p : α → Bool) : List α → List (List α)
  | [] => [[]]
  | a :: rest =>
    if p a then [] :: splitWhere p rest
    else (splitWhere p rest).modifyHead (a :: ·)

/-- The maximal runs of characters that are not blank. -/
def words (text : List Char) : List (List Char) :=
  (splitWhere isBlank text).filter (fun w => !w.isEmpty)

/-- The words of a text with single spaces between them. -/
def normalize (text : List Char) : List Char :=
  List.intercalate [' '] (words text)

/-- A text of nothing but blanks. -/
def isBlankText (text : List Char) : Bool :=
  text.all isBlank

/-! ## Small facts -/

@[simp]
theorem trimStart_nil : trimStart [] = [] := rfl

@[simp]
theorem trimEnd_nil : trimEnd [] = [] := rfl

@[simp]
theorem trim_nil : trim [] = [] := rfl

theorem trimEnd_cons (c : Char) (text : List Char) :
    trimEnd (c :: text)
      = if (trimEnd text).isEmpty && isBlank c then [] else c :: trimEnd text :=
  rfl

theorem length_trimStart_le (text : List Char) :
    (trimStart text).length ≤ text.length :=
  (List.dropWhile_sublist isBlank).length_le

theorem length_trimEnd_le (text : List Char) :
    (trimEnd text).length ≤ text.length := by
  induction text with
  | nil => simp
  | cons c text ih =>
    rw [trimEnd_cons]
    split
    · simp
    · simpa using ih

/-- **Trimming never lengthens a text.** -/
theorem length_trim_le (text : List Char) : (trim text).length ≤ text.length :=
  Nat.le_trans (length_trimEnd_le _) (length_trimStart_le _)

theorem length_of_mem_splitWhere {α : Type} (p : α → Bool) :
    ∀ (l : List α), ∀ piece ∈ splitWhere p l, piece.length ≤ l.length
  | [], piece, h => by simp_all [splitWhere]
  | a :: rest, piece, h => by
    have ih := length_of_mem_splitWhere p rest
    rw [splitWhere] at h
    split at h
    · rcases List.mem_cons.mp h with rfl | h
      · simp
      · exact Nat.le_succ_of_le (ih piece h)
    · cases hs : splitWhere p rest with
      | nil => simp [hs] at h
      | cons head tail =>
        rw [hs] at h ih
        rcases List.mem_cons.mp h with rfl | h
        · simpa using ih head (by simp)
        · exact Nat.le_succ_of_le (ih piece (List.mem_cons_of_mem _ h))

end TestScaffold.Text
