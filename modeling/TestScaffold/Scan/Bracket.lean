import TestScaffold.Text.Cut
/-!
# Brackets and their depth

The three kinds of brackets share one depth: each of `<`, `[`, `(` opens a level
and each of `>`, `]`, `)` closes one, whatever its kind. The functions of this
module read every bracket of the text, inside literals too.

`cutAtOpen?` cuts at the first given bracket that stands at depth zero, and
`cutAtClose?` at the bracket where an opened level ends.
-/

namespace TestScaffold.Scan

/-- The brackets that open a level. -/
def isOpening (c : Char) : Bool :=
  c == '<' || c == '[' || c == '('

/-- The brackets that close a level. -/
def isClosing (c : Char) : Bool :=
  c == '>' || c == ']' || c == ')'

/-- The depth behind a character. A closing bracket without a partner, such as
the one of `=>`, leaves depth zero. -/
def depthAfter (depth : Nat) (c : Char) : Nat :=
  if isOpening c then depth + 1 else if isClosing c then depth - 1 else depth

/-- Cut at the first `bracket` at depth zero, reading on at the given depth. -/
def cutAtOpenFrom? (bracket : Char) :
    Nat → List Char → Option (List Char × List Char)
  | _, [] => none
  | depth, c :: rest =>
    if c = bracket ∧ depth = 0 then some ([], rest)
    else (cutAtOpenFrom? bracket (depthAfter depth c) rest).map
      fun (before, after) => (c :: before, after)

/-- Cut at the first `bracket` that opens a new level from depth zero. -/
def cutAtOpen? (bracket : Char) (text : List Char) :
    Option (List Char × List Char) :=
  cutAtOpenFrom? bracket 0 text

/-- Cut at the bracket that brings the depth back to zero, reading on at the
given depth; `none` when there is none, and when a closing bracket comes before
any opening one. -/
def cutAtClose? : Nat → List Char → Option (List Char × List Char)
  | _, [] => none
  | depth, c :: rest =>
    let keep (cut : Option (List Char × List Char)) :=
      cut.map fun (before, after) => (c :: before, after)
    if isOpening c then keep (cutAtClose? (depth + 1) rest)
    else if isClosing c then
      match depth with
      | 0 => none
      | 1 => some ([], rest)
      | depth + 2 => keep (cutAtClose? (depth + 1) rest)
    else keep (cutAtClose? depth rest)

/-- Byte offset of the first `bracket` that opens a new level from depth
zero. -/
def findOpen? (bracket : Char) (text : List Char) : Option Nat :=
  (cutAtOpen? bracket text).map fun (before, _) => Text.byteLength before

/-- Byte offset of the bracket that closes the one at the byte offset `start`.
An offset inside a character or past the end has no such bracket. -/
def closingBracket? (text : List Char) (start : Nat) : Option Nat := do
  let (_, rest) ← Text.cutAtByte? start text
  let (group, _) ← cutAtClose? 0 rest
  return start + Text.byteLength group

/-! ## Small facts -/

theorem length_of_cutAtClose? :
    ∀ {depth : Nat} {l before after : List Char},
      cutAtClose? depth l = some (before, after) →
        before.length + after.length + 1 = l.length
  | _, [], _, _, h => by simp [cutAtClose?] at h
  | depth, c :: rest, before, after, h => by
    have keep : ∀ {d : Nat},
        (cutAtClose? d rest).map (fun (b, a) => (c :: b, a))
          = some (before, after) →
        before.length + after.length + 1 = (c :: rest).length := by
      intro d hd
      obtain ⟨⟨b, a⟩, hb, he⟩ := Option.map_eq_some_iff.mp hd
      cases he
      have := length_of_cutAtClose? hb
      simp only [List.length_cons]
      omega
    simp only [cutAtClose?] at h
    split at h
    · exact keep h
    · split at h
      · split at h
        · simp at h
        · cases h
          simp
        · exact keep h
      · exact keep h

end TestScaffold.Scan
