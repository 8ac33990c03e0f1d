import Mathlib.Data.Option.Basic
import Mathlib.Tactic.Tauto
import TestScaffold.Json.Printer
import TestScaffold.Json.Token
/-!
# Printed scalars are single tokens

What `scalarChars` writes for a name, a natural number or a string is read by `token?` as
that scalar, with everything behind it left over (`token?_scalarChars`). Only numbers mind
what stands behind them, for more digits, a fraction or an exponent would extend them:
`EndsValue` says that a text goes on with what may follow a value.

Strings come back because each character does: `stringUnits?_charText` reads one written
character, escaped or not, as its number, and no character is half of a surrogate pair.
-/

namespace TestScaffold.Json

/-! ## Strings -/

/-- The four digits of an escaped control character. -/
theorem hexNumber?_control :
    ∀ n < 32, Text.hexNumber? ['0', '0', Text.hexDigit (n / 16), Text.hexDigit (n % 16)]
      = some n := by
  decide

/-- A character that needs no escape is read as its number. -/
theorem stringUnits?_cons {c : Char} (hquote : c ≠ '"') (hback : c ≠ '\\')
    (hplain : ' ' ≤ c) (rest : List Char) :
    stringUnits? (c :: rest) =
      (stringUnits? rest).map fun (units, rest) => (c.toNat :: units, rest) := by
  rw [stringUnits?.eq_5 c rest hquote (fun _ _ _ _ _ h => absurd h hback)
    (fun _ _ h => absurd h hback)]
  have hguard : (guard (' ' ≤ c ∧ c ≠ '\\') : Option Unit) = some () :=
    if_pos ⟨hplain, hback⟩
  rw [hguard]
  cases stringUnits? rest <;> rfl

/-- An escape by a letter is read as the number it names. -/
theorem stringUnits?_escape {c : Char} {unit : Nat} (hunit : escapeUnit? c = some unit)
    (rest : List Char) :
    stringUnits? ('\\' :: c :: rest) =
      (stringUnits? rest).map fun (units, rest) => (unit :: units, rest) := by
  have hletter : c ≠ 'u' := by
    rintro rfl
    simp [escapeUnit?] at hunit
  rw [stringUnits?.eq_4 c rest fun _ _ _ _ _ h => absurd h hletter, hunit]
  cases stringUnits? rest <;> rfl

/-- **Each character is read as its number**, however it is written. -/
theorem stringUnits?_charText (c : Char) (rest : List Char) :
    stringUnits? (charText c ++ rest) =
      (stringUnits? rest).map fun (units, rest) => (c.toNat :: units, rest) := by
  unfold charText
  split
  case h_8 hquote hback _ _ _ _ _ =>
    split
    case isTrue hcontrol =>
      show stringUnits? ('\\' :: 'u' :: '0' :: '0' :: _ :: _ :: rest) = _
      rw [stringUnits?, hexNumber?_control c.toNat hcontrol]
      cases stringUnits? rest <;> rfl
    case isFalse hplain =>
      have hle : ' ' ≤ c := by
        rw [Char.le_def, UInt32.le_iff_toNat_le]
        exact Nat.not_lt.mp hplain
      exact stringUnits?_cons hquote hback hle rest
  all_goals exact stringUnits?_escape rfl rest

/-- The characters of a string are read up to its closing quote. -/
theorem stringUnits?_flatMap (text rest : List Char) :
    stringUnits? (text.flatMap charText ++ '"' :: rest) = some (text.map Char.toNat, rest) := by
  induction text with
  | nil => rfl
  | cons c text ih =>
    rw [List.flatMap_cons, List.append_assoc, stringUnits?_charText, ih]
    rfl

/-- No character is half of a surrogate pair. -/
theorem not_surrogate (c : Char) : ¬(0xD800 ≤ c.toNat ∧ c.toNat < 0xE000) := by
  have hvalid : c.toNat < 0xD800 ∨ 0xDFFF < c.toNat ∧ c.toNat < 0x110000 := c.valid
  omega

/-- Where there are no surrogates there is nothing to join. -/
theorem joinSurrogates_map_toNat (text : List Char) :
    joinSurrogates (text.map Char.toNat) = text.map Char.toNat := by
  induction text with
  | nil => rfl
  | cons c text ih =>
    cases text with
    | nil => rfl
    | cons d text =>
      have hc := not_surrogate c
      rw [List.map_cons, List.map_cons, joinSurrogates, if_neg (by omega)]
      rw [List.map_cons] at ih
      rw [ih]

theorem scalar?_toNat (c : Char) : Text.scalar? c.toNat = some c := by
  have hvalid : c.toNat.isValidChar := c.valid
  unfold Text.scalar?
  rw [if_pos hvalid, Char.ofNat_toNat]

/-- **The numbers of the characters of a text name that text.** -/
theorem unitsText?_map_toNat (text : List Char) :
    unitsText? (text.map Char.toNat) = some (String.ofList text) := by
  have hscalars : (text.map Char.toNat).mapM Text.scalar? = some text := by
    induction text with
    | nil => rfl
    | cons c text ih =>
      rw [List.map_cons, List.mapM_cons, scalar?_toNat, ih]
      rfl
  rw [unitsText?, joinSurrogates_map_toNat, hscalars]
  rfl

/-- A quote begins a string. -/
theorem token?_quote (text : List Char) :
    token? ('"' :: text) = (stringUnits? text).map fun (units, rest) =>
      (.scalar (.string (unitsText? units)), rest) := by
  show (stringUnits? text).bind _ = _
  cases stringUnits? text <;> rfl

/-- A written string is one token. -/
theorem token?_literal (text : String) (rest : List Char) :
    token? (literal (some text) ++ rest) = some (.scalar (.string (some text)), rest) := by
  have happend : literal (some text) ++ rest
      = '"' :: (text.toList.flatMap charText ++ '"' :: rest) := by
    show ('"' :: text.toList.flatMap charText ++ ['"']) ++ rest = _
    rw [List.cons_append, List.cons_append, List.append_assoc]
    rfl
  rw [happend, token?_quote, stringUnits?_flatMap]
  show some (Token.scalar (.string (unitsText? _)), rest) = _
  rw [unitsText?_map_toNat, String.ofList_toList]

/-! ## Numbers -/

/-- A text goes on with what may stand behind a value: a comma, a closing bracket or a
blank. -/
def EndsValue (rest : List Char) : Prop :=
  ∀ c ∈ rest.head?, c ∈ [',', ']', '}'] ∨ isSpace c = true

theorem endsValue_cons {c : Char} {rest : List Char} :
    EndsValue (c :: rest) ↔ c ∈ [',', ']', '}'] ∨ isSpace c = true := by
  simp [EndsValue]

/-- What may stand behind a value extends no number. -/
theorem EndsValue.not_number {c : Char} {rest : List Char} (h : EndsValue (c :: rest)) :
    c.isDigit = false ∧ c ≠ '.' ∧ c ≠ 'e' ∧ c ≠ 'E' := by
  have hc : c ∈ [',', ']', '}', ' ', '\t', '\n', '\r'] := by
    rcases endsValue_cons.mp h with h | h
    · exact List.mem_append_left [' ', '\t', '\n', '\r'] h
    · simp only [isSpace, Bool.or_eq_true, beq_iff_eq] at h
      simp only [List.mem_cons]
      tauto
  have hall : ∀ c ∈ [',', ']', '}', ' ', '\t', '\n', '\r'],
      c.isDigit = false ∧ c ≠ '.' ∧ c ≠ 'e' ∧ c ≠ 'E' := by decide
  exact hall c hc

/-- The digits of a number are taken as far as they go. -/
theorem someDigits?_append {digits rest : List Char} (hne : digits ≠ [])
    (hdigits : ∀ c ∈ digits, c.isDigit = true) (hrest : EndsValue rest) :
    someDigits? (digits ++ rest) = some (digits, rest) := by
  have hbehind : rest.takeWhile Char.isDigit = [] := by
    cases rest with
    | nil => rfl
    | cons c rest => rw [List.takeWhile_cons_of_neg (by simp [hrest.not_number.1])]
  have htake : (digits ++ rest).takeWhile Char.isDigit = digits := by
    rw [List.takeWhile_append_of_pos hdigits, hbehind, List.append_nil]
  unfold someDigits?
  dsimp only
  rw [htake, if_neg (by simpa using hne), List.drop_left]

/-- A natural number is written with a digit in front. -/
theorem exists_toDigits_eq_cons (n : Nat) :
    ∃ c digits, Nat.toDigits 10 n = c :: digits ∧ c.isDigit = true := by
  obtain ⟨c, digits, heq⟩ := List.exists_cons_of_ne_nil (Nat.toDigits_ne_nil (b := 10) (n := n))
  exact ⟨c, digits, heq,
    Nat.isDigit_of_mem_toDigits (b := 10) (n := n) (by decide) (by decide) (by simp [heq])⟩

/-- Only zero is written with a zero in front. -/
theorem toDigits_eq_cons_zero {n : Nat} {more : List Char}
    (h : Nat.toDigits 10 n = '0' :: more) : more = [] := by
  induction n using Nat.strongRecOn generalizing more with
  | _ n ih =>
    by_cases hlt : n < 10
    · rw [Nat.toDigits_of_lt_base hlt] at h
      exact (List.cons.inj h).2.symm
    · -- the leading digits are those of `n / 10`, which is not zero
      rw [Nat.toDigits_of_base_le (by decide) (by omega)] at h
      obtain ⟨c, digits, hdigits, -⟩ := exists_toDigits_eq_cons (n / 10)
      rw [hdigits, List.cons_append] at h
      obtain ⟨rfl, -⟩ := List.cons.inj h
      obtain rfl := ih (n / 10) (by omega) hdigits
      have hzero : n / 10 = 0 := by
        rw [← Nat.ofDigitChars_ten_toDigits (n := n / 10), hdigits]
        decide
      omega

/-- The digits of a natural number are a whole part. -/
theorem wholeDigits?_toDigits (n : Nat) {rest : List Char} (hrest : EndsValue rest) :
    wholeDigits? (Nat.toDigits 10 n ++ rest) = some (Nat.toDigits 10 n, rest) := by
  obtain ⟨c, digits, heq, -⟩ := exists_toDigits_eq_cons n
  by_cases hc : c = '0'
  · subst hc
    obtain rfl := toDigits_eq_cons_zero heq
    rw [heq]
    rfl
  · have hsome : someDigits? (Nat.toDigits 10 n ++ rest) = some (Nat.toDigits 10 n, rest) :=
      someDigits?_append Nat.toDigits_ne_nil
        (fun _ => Nat.isDigit_of_mem_toDigits (by decide) (by decide)) hrest
    rw [heq, List.cons_append] at hsome ⊢
    rw [wholeDigits?.eq_2 _ fun _ h => hc (List.cons.inj h).1, hsome]

/-- No fraction begins behind a value. -/
theorem fraction?_of_endsValue {rest : List Char} (h : EndsValue rest) :
    fraction? rest = some ([], rest) := by
  rw [fraction?.eq_2]
  rintro more rfl
  exact h.not_number.2.1 rfl

/-- No exponent begins behind a value. -/
theorem exponent?_of_endsValue {rest : List Char} (h : EndsValue rest) :
    exponent? rest = some ([], rest) := by
  cases rest with
  | nil => rfl
  | cons c rest => rw [exponent?, if_neg (by simp [h.not_number.2.2])]

/-- The number with the digits of a number. -/
theorem decimal_toDigits (n : Nat) : decimal (Nat.toDigits 10 n) = n :=
  Nat.ofDigitChars_ten_toDigits

/-- The digits of a natural number are that number. -/
theorem number?_toDigits (n : Nat) {rest : List Char} (hrest : EndsValue rest) :
    number? (Nat.toDigits 10 n ++ rest) = some (.natural n, rest) := by
  have hsign : sign ['-'] (Nat.toDigits 10 n ++ rest) = ([], Nat.toDigits 10 n ++ rest) := by
    obtain ⟨c, digits, heq, hdigit⟩ := exists_toDigits_eq_cons n
    have hc : c ≠ '-' := by
      rintro rfl
      exact absurd hdigit (by decide)
    rw [heq, List.cons_append, sign, if_neg (by simpa using hc)]
  simp only [number?, hsign, wholeDigits?_toDigits n hrest, fraction?_of_endsValue hrest,
    exponent?_of_endsValue hrest, decimal_toDigits, Option.bind_eq_bind, Option.bind_some]
  rfl

/-- A text that begins with a digit begins with a number. -/
theorem token?_of_isDigit {c : Char} (h : c.isDigit = true) (rest : List Char) :
    token? (c :: rest) = (number? (c :: rest)).map fun (value, rest) => (.scalar value, rest) := by
  have hc : ∀ d, d.isDigit = false → c ≠ d := by
    rintro d hd rfl
    rw [h] at hd
    cases hd
  have hnames : ∀ name ∈ names, ¬name.1.isPrefixOf (c :: rest) = true := by
    simp [names, (hc 'n' rfl).symm, (hc 't' rfl).symm, (hc 'f' rfl).symm]
  unfold token?
  split
  case h_1 heq => cases heq
  case h_9 =>
    split
    · rename_i hfind
      exact absurd (List.find?_some hfind) (hnames _ (List.mem_of_find?_eq_some hfind))
    · rfl
  all_goals
    rename_i heq
    exact absurd (List.cons.inj heq).1 (hc _ rfl)

/-- A natural number is one token. -/
theorem token?_toDigits (n : Nat) {rest : List Char} (hrest : EndsValue rest) :
    token? (Nat.toDigits 10 n ++ rest) = some (.scalar (.natural n), rest) := by
  obtain ⟨c, digits, heq, hdigit⟩ := exists_toDigits_eq_cons n
  have hnumber := number?_toDigits n hrest
  rw [heq, List.cons_append] at hnumber ⊢
  rw [token?_of_isDigit hdigit, hnumber]
  rfl

/-! ## Names and scalars -/

/-- The name of a scalar is one token. -/
theorem token?_name {name : List Char} {value : Json} (h : (name, value) ∈ names)
    (rest : List Char) : token? (name ++ rest) = some (.scalar value, rest) := by
  simp only [names, List.mem_cons, Prod.mk.injEq, List.not_mem_nil, or_false] at h
  obtain ⟨rfl, rfl⟩ | ⟨rfl, rfl⟩ | ⟨rfl, rfl⟩ := h <;> rfl

/-- The values that are written in one token: names, natural numbers and strings with a
text. -/
inductive Scalar : Json → Prop
  | null : Scalar .null
  | bool (value : Bool) : Scalar (.bool value)
  | natural (value : Nat) : Scalar (.natural value)
  | text (value : String) : Scalar (.string (some value))

/-- **A written scalar is one token.** -/
theorem token?_scalarChars {value : Json} (h : Scalar value) {rest : List Char}
    (hrest : EndsValue rest) :
    token? (scalarChars value ++ rest) = some (.scalar value, rest) := by
  cases h with
  | null => exact token?_name (.head _) rest
  | bool value =>
    cases value with
    | true => exact token?_name (.tail _ (.head _)) rest
    | false => exact token?_name (.tail _ (.tail _ (.head _))) rest
  | natural n => exact token?_toDigits n hrest
  | text text => exact token?_literal text rest

end TestScaffold.Json
