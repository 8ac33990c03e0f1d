/-!
# Grouping in order of appearance

`groupByKey` collects the elements of a list under their keys. The groups stand
in the order in which their keys first appear, and each group keeps the order of
the list.
-/

namespace TestScaffold

/-- Put an element at the end of the group of its key, which is a new last group
when there is none yet. -/
def insertIntoGroup {α κ : Type} [DecidableEq κ] (key : κ) (a : α) :
    List (κ × List α) → List (κ × List α)
  | [] => [(key, [a])]
  | (k, members) :: groups =>
    if k = key then (k, members ++ [a]) :: groups
    else (k, members) :: insertIntoGroup key a groups

/-- The elements of a list under their keys. -/
def groupByKey {α κ : Type} [DecidableEq κ] (key : α → κ) (l : List α) :
    List (κ × List α) :=
  l.foldl (fun groups a => insertIntoGroup (key a) a groups) []

end TestScaffold
