import TestScaffold.Text.Hex
/-!
# Escapes in configured strings

In a string between double quotes a backslash begins an escape: a letter for a
control character, the quote or the backslash itself, or `u` and `U` with four
and eight hexadecimal digits for any character. In strings over several lines a
backslash at the end of a line also takes the line break along, with all blanks
and line breaks behind it.
-/

namespace TestScaffold.Text

/-- The character named by a one-letter escape. -/
def escapeLetter? (c : Char) : Option Char :=
  match c with
  | 'b' => some '\x08'
  | 't' => some '\t'
  | 'n' => some '\n'
  | 'f' => some '\x0c'
  | 'r' => some '\r'
  | '"' => some '"'
  | '\\' => some '\\'
  | _ => none

/-- The character named by some hexadecimal digits at the beginning of a text, and
the rest. -/
def escapeNumber? (digits : Nat) (text : List Char) : Option (Char × List Char) :=
  if text.length < digits then none
  else do
    let c ← scalar? (← hexNumber? (text.take digits))
    return (c, text.drop digits)

/-- The character named by the escape behind a backslash, and the rest. -/
def escape? : List Char → Option (Char × List Char)
  | [] => none
  | c :: rest =>
    if c = 'u' then escapeNumber? 4 rest
    else if c = 'U' then escapeNumber? 8 rest
    else (escapeLetter? c).map (·, rest)

theorem length_of_escape? {text rest : List Char} {c : Char}
    (h : escape? text = some (c, rest)) : rest.length ≤ text.length := by
  have number : ∀ {digits : Nat} {t r : List Char} {d : Char},
      escapeNumber? digits t = some (d, r) → r.length ≤ t.length := by
    intro digits t r d hd
    unfold escapeNumber? at hd
    split at hd
    · simp at hd
    · simp only [Option.bind_eq_bind, Option.bind_eq_some_iff, Option.pure_def,
        Option.some.injEq, Prod.mk.injEq] at hd
      obtain ⟨_, _, _, _, _, rfl⟩ := hd
      simp
  cases text with
  | nil => simp [escape?] at h
  | cons a text =>
    simp only [escape?] at h
    split at h
    · exact Nat.le_succ_of_le (number h)
    · split at h
      · exact Nat.le_succ_of_le (number h)
      · obtain ⟨_, _, he⟩ := Option.map_eq_some_iff.mp h
        cases he
        simp

/-- Whether a character may stand for itself in a string of one line: a tab or
anything that is no ASCII control character. -/
def isPlain (c : Char) : Bool :=
  c == '\t' || (' ' ≤ c && c != '\x7f')

/-- Whether a character is a blank of one line. -/
def isInlineBlank (c : Char) : Bool :=
  c == ' ' || c == '\t'

/-- Resolve the escapes of a string, whose lines end in line feeds. -/
def unescape? (multiline : Bool) (text : List Char) : Option (List Char) :=
  match text with
  | [] => some []
  | c :: rest =>
    if c = '\\' then
      if multiline && (rest.dropWhile isInlineBlank).head? == some '\n' then
        unescape? multiline (rest.dropWhile fun c => isInlineBlank c || c == '\n')
      else
        match _h : escape? rest with
        | some (c, rest) => (unescape? multiline rest).map (c :: ·)
        | none => none
    else if isPlain c || (multiline && c == '\n') then
      (unescape? multiline rest).map (c :: ·)
    else none
termination_by text.length
decreasing_by
  · exact Nat.lt_succ_of_le (List.dropWhile_sublist _).length_le
  · exact Nat.lt_succ_of_le (length_of_escape? _h)
  · simp

/-- Cut a text at the first quote that no backslash stands in front of. -/
def cutAtQuote? (quote : Char) : List Char → Option (List Char × List Char)
  | [] => none
  | [c] => if c = quote then some ([], []) else none
  | c :: d :: rest =>
    if c = quote then some ([], d :: rest)
    else if c = '\\' then
      (cutAtQuote? quote rest).map fun (raw, after) => (c :: d :: raw, after)
    else
      (cutAtQuote? quote (d :: rest)).map fun (raw, after) => (c :: raw, after)

end TestScaffold.Text
