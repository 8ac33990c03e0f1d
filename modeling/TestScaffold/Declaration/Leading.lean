import TestScaffold.Text.Blank
import TestScaffold.Scan.Bracket
/-!
# Cleaning the text in front of a name

What stands in front of the name of a declared symbol are its modifiers and its
type, but also comments and attributes. `clean` replaces each comment and each
attribute group by a space and normalises the white space of what is left.

An attribute group opens with an identifier, the brackets of an array rank
never do: that tells `[Obsolete]` from `[]` and `[,]`.
-/

namespace TestScaffold.Declaration

/-- Replace each comment that begins with two slashes by a space. The comment
runs to the end of its line, which stays. -/
def dropLineComments (inside : Bool) : List Char → List Char
  | [] => []
  | c :: rest =>
    if inside then
      if c = '\n' then '\n' :: dropLineComments false rest
      else dropLineComments true rest
    else if c = '/' then
      match rest with
      | '/' :: rest => ' ' :: dropLineComments true rest
      | rest => '/' :: dropLineComments false rest
    else c :: dropLineComments false rest

/-- Replace each comment between a slash with a star and a star with a slash by
a space. A comment that is never closed is no comment. -/
def dropBlockComments (text : List Char) : List Char :=
  match text with
  | [] => []
  | '/' :: '*' :: rest =>
    match _h : Text.cutAt? ['*', '/'] rest with
    | some (_, after) => ' ' :: dropBlockComments after
    | none => '/' :: '*' :: rest
  | c :: rest => c :: dropBlockComments rest
termination_by text.length
decreasing_by
  · rw [Text.eq_append_of_cutAt? _h]
    simp only [List.length_append, List.length_cons]
    omega
  · simp

/-- Whether a text begins with an ASCII letter or an underscore. -/
def startsIdentifier : List Char → Bool
  | c :: _ => c.isAlpha || c == '_'
  | [] => false

/-- Replace each bracket group that opens with an identifier by a space. A
bracket that is never closed opens no group. -/
def dropAttributeGroups (text : List Char) : List Char :=
  match text with
  | [] => []
  | c :: rest =>
    if c = '[' ∧ startsIdentifier (Text.trimStart rest) then
      match _h : Scan.cutAtClose? 1 rest with
      | some (_, after) => ' ' :: dropAttributeGroups after
      | none => c :: dropAttributeGroups rest
    else c :: dropAttributeGroups rest
termination_by text.length
decreasing_by
  · have := Scan.length_of_cutAtClose? _h
    simp only [List.length_cons]
    omega
  · simp
  · simp

/-- The text without comments and attribute groups, with single spaces between
its words. Groups are only looked for in a text that holds a `]`. -/
def clean (text : List Char) : List Char :=
  let code := dropBlockComments (dropLineComments false text)
  Text.normalize (if code.contains ']' then dropAttributeGroups code else code)

end TestScaffold.Declaration
