import TestScaffold.Declaration.Leading
import TestScaffold.Declaration.Signature
/-!
# The declaration text of a symbol

A symbol arrives as two texts: the source in front of its name, which holds the
modifiers and the type, and its display signature. `extract` joins them into one
declaration and, for constructors and methods, cuts that declaration at the
parameter list.
-/

namespace TestScaffold.Declaration

/-- What a display signature describes. -/
inductive Kind where
  /-- A class, struct, interface, enum or record. -/
  | classLike
  /-- A constructor. -/
  | constructor
  /-- A method. -/
  | method
deriving DecidableEq, Repr

/-- The declaration text of a symbol. -/
structure Extracted where
  /-- The whole declaration of a class-like symbol; of a constructor or method
  the part in front of its parameter list. -/
  definition : List Char
  /-- The parameter list without its parentheses, with what follows it. -/
  parameters : Option (List Char)
deriving DecidableEq, Repr

/-- A text and the text behind it, with single spaces between their words. -/
def joinWords (leading tail : List Char) : List Char :=
  Text.normalize (leading ++ ' ' :: tail)

/-- What stands in the declaration up to and including the parenthesis that
opens the parameter list: the name, with the generic suffix of the signature
unless it brings its own, and the parenthesis. A constructor may be reported
without a name or as `.ctor`; then the signature stands for the name. -/
def listOpening (signature name : List Char) : List Char :=
  let reported :=
    if name.isEmpty || name == ".ctor".toList then signature else name
  let full :=
    if reported.contains '<' then reported
    else reported ++ (genericSuffix? signature).getD []
  match Text.cutWhere? (· == '(') full with
  | some (before, _) => Text.normalize (before ++ ['('])
  | none => Text.normalize full ++ ['(']

/-- Cut a declaration at the parenthesis that opens its parameter list: the one
behind the symbol's name or else the first one at depth zero. -/
def cutAtList? (opening definition : List Char) : Option (List Char × List Char) :=
  match Text.cutAt? opening definition with
  | some (before, after) => some (before ++ opening.dropLast, after)
  | none => Scan.cutAtOpen? '(' definition

/-- The declaration text of a symbol with the given source text in front of its
name, display signature and reported name. A text behind the parameter list,
such as `where` clauses, stays behind the parameters; in front of it stands a
space even when there are none. -/
def extract (leading signature name : List Char) (kind : Kind) : Extracted :=
  match kind with
  | .classLike => ⟨joinWords (clean leading) (classDisplayName signature), none⟩
  | .constructor | .method =>
    let definition := joinWords (clean leading) signature
    match cutAtList? (listOpening signature name) definition with
    | none => ⟨definition, none⟩
    | some (head, rest) =>
      let (inner, tail) := (Scan.cutAtClose? 1 rest).getD (rest, [])
      let trailing := Text.trim tail
      let parameters :=
        if trailing.isEmpty then Text.trim inner
        else Text.trim inner ++ ' ' :: trailing
      ⟨Text.trim head, some parameters⟩

end TestScaffold.Declaration
