import TestScaffold.TypeExpr.Printer
import TestScaffold.TypeExpr.Outline
import TestScaffold.Scan.TopLevel
/-!
# Reading types

`TypeExpr.parse` gives every text a type; there is no failure. A text between
parentheses is a tuple. Any other text has an outline: the texts of its generic
argument lists are read in turn, and a name between parentheses, as in
`(int, string)[]`, stands for the components of a tuple.

Reading ends because every text that is read in turn has lost a bracket.
-/

namespace TestScaffold.TypeExpr

/-- What stands between the parentheses of a text that begins and ends with
one. -/
def tupleInterior? : List Char → Option (List Char)
  | '(' :: rest => if rest.getLast? = some ')' then some rest.dropLast else none
  | _ => none

theorem length_of_tupleInterior? {text inner : List Char}
    (h : tupleInterior? text = some inner) : inner.length < text.length := by
  unfold tupleInterior? at h
  split at h
  · split at h
    · cases h
      simp only [List.length_dropLast, List.length_cons]
      omega
    · simp at h
  · simp at h

mutual
/-- The type a text stands for. -/
def ofChars (text : List Char) : TypeExpr :=
  match _ht : tupleInterior? (Text.trim text) with
  | some inner => tuple (listOfChars inner)
  | none =>
    let o := Outline.read (Text.trim text)
    let base : TypeExpr :=
      { genericArguments := (o.arguments.attach.map fun a => listOfChars a.1).flatten
        arrayRanks := o.ranks.map ArrayRank.mk
        nullable := o.nullable }
    match _hn : tupleInterior? o.nameText with
    | some inner => { base with tupleComponents := listOfChars inner }
    | none => { base with name := String.ofList o.nameText }
termination_by (text.length, 0)
decreasing_by
  · exact .left _ _ (Nat.lt_of_lt_of_le (length_of_tupleInterior? _ht)
      (Text.length_trim_le _))
  · exact .left _ _ (Nat.lt_of_lt_of_le (Outline.length_of_mem_arguments a.2)
      (Text.length_trim_le _))
  · exact .left _ _ (Nat.lt_of_lt_of_le (length_of_tupleInterior? _hn)
      (Nat.le_trans (Outline.length_nameText_le _) (Text.length_trim_le _)))
/-- The types in a text that separates them by top-level commas. -/
def listOfChars (text : List Char) : List TypeExpr :=
  (Scan.split ',' text).attach.map fun piece => ofChars piece.1
termination_by (text.length, 1)
decreasing_by
  have := Scan.length_of_mem_split piece.2
  rcases Nat.lt_or_eq_of_le this with h | h
  · exact .left _ _ h
  · rw [h]
    exact .right _ (by decide)
end

/-- The type a text stands for. -/
def parse (text : String) : TypeExpr :=
  ofChars text.toList

/-- The types in a text that separates them by top-level commas, such as the
text of generic arguments. -/
def parseList (text : String) : List TypeExpr :=
  listOfChars text.toList

/-- A list of types is read piece by piece. -/
theorem listOfChars_eq_map (text : List Char) :
    listOfChars text = (Scan.split ',' text).map ofChars := by
  rw [listOfChars]
  exact List.attach_map_val ..

end TestScaffold.TypeExpr
