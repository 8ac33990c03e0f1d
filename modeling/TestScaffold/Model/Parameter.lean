import TestScaffold.Declaration.Error
import TestScaffold.Declaration.Peel
import TestScaffold.Model.Modifiers
import TestScaffold.TypeExpr.Parser
/-!
# Parameters

A parameter is written as attributes, modifiers, a type, a name and perhaps a
default value: `[NotNull] ref int count = 0`. The default value is kept as its
source text.
-/

namespace TestScaffold

/-- A parameter of a method or constructor. -/
structure Parameter where
  /-- The name. -/
  name : String
  /-- The modifiers; `none` when there were none. -/
  keywords : Option (List String) := none
  /-- The type. -/
  type : TypeExpr
  /-- The attributes without their brackets; `none` when there were none. -/
  attributes : Option (List String) := none
  /-- The source text of the default value. -/
  defaultValue : Option String := none
deriving DecidableEq, Repr, Inhabited

namespace Parameter

/-- The modifiers that may lead a parameter. -/
def vocabulary : List String :=
  ["in", "out", "params", "ref", "this"]

instance : HasKeywords Parameter where
  keywordList p := p.keywords.getD []

/-! ## Reading -/

/-- Take the default value away: all that stands behind the first top-level
equals sign. -/
def peelDefault (text : List Char) : List Char × Option String :=
  match Scan.cutFirst? '=' text with
  | some (before, after) =>
    (Text.trim before, some (String.ofList (Text.trim after)))
  | none => (text, none)

/-- Read one parameter. What is left between the modifiers and the default value
has to be a type, a space and a name. -/
def ofChars (segment : List Char) : Except DeclarationError Parameter :=
  let text := Text.trim segment
  let attributes := Declaration.peelAttributes text
  let keywords := Declaration.peelKeywords vocabulary attributes.rest
  let (typed, defaultValue) := peelDefault keywords.rest
  match Scan.split ' ' typed with
  | [type, name] =>
    .ok
      { name := String.ofList name
        keywords := keywords.found
        type := TypeExpr.ofChars type
        attributes := attributes.found
        defaultValue }
  | _ => .error (.parameterShape (String.ofList text))

/-- Read a parameter list. A blank text has no parameters. -/
def listOfChars (text : List Char) : Except DeclarationError (List Parameter) :=
  if Text.isBlankText text then .ok []
  else (Scan.split ',' text).mapM ofChars

/-! ## Printing -/

/-- The text of a parameter without its attributes. -/
def chars (p : Parameter) : List Char :=
  let defaultText :=
    match p.defaultValue with
    | some value => " = ".toList ++ value.toList
    | none => []
  Text.trim (keywordChars p ++ ' ' :: p.type.chars ++ ' ' :: p.name.toList ++ defaultText)

/-- The text of a parameter list without its parentheses. -/
def listChars (ps : List Parameter) : List Char :=
  commaJoin (ps.map chars)

instance : ToString Parameter where
  toString p := String.ofList p.chars

/-! ## Properties -/

/-- Whether an argument may be left out. -/
def isOptional (p : Parameter) : Bool :=
  p.defaultValue.isSome

/-- Whether the parameter is passed by `out`. -/
def isOut (p : Parameter) : Bool :=
  hasKeyword "out" p

/-- Whether the parameter is passed by `ref`. -/
def isRef (p : Parameter) : Bool :=
  hasKeyword "ref" p

/-- The modifier to repeat in front of an argument, with the space behind it. -/
def callModifier (p : Parameter) : String :=
  if p.isOut then "out " else if p.isRef then "ref " else ""

/-- Whether the default value is the word `default`; `none` without a default
value. -/
def defaultsToDefault? (p : Parameter) : Option Bool :=
  p.defaultValue.map (· == "default")

/-- Whether the default value is the word `null`; `none` without a default
value. -/
def defaultsToNull? (p : Parameter) : Option Bool :=
  p.defaultValue.map (· == "null")

end Parameter

end TestScaffold
