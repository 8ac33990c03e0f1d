/-!
# Positions in a document

Lines and characters are counted from zero, characters in Unicode code points.
-/

namespace TestScaffold

/-- A place between two characters of a document. -/
structure Position where
  /-- The line, counted from zero. -/
  line : UInt32
  /-- The number of characters of the line in front of the place. -/
  character : UInt32
deriving DecidableEq, Repr, Inhabited

/-- The text between two positions. -/
structure Range where
  start : Position
  stop : Position
deriving DecidableEq, Repr, Inhabited

instance : ToString Position where
  toString p := toString p.line.toNat ++ ":" ++ toString p.character.toNat

end TestScaffold
