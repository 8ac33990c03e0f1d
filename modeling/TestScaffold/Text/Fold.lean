/-!
# Letters without regard to case

Keywords that are read in any case are compared by simple case folding. To an
ASCII letter fold its upper case form and two letters beyond ASCII: the long s
and the Kelvin sign.
-/

namespace TestScaffold.Text

/-- The lower-case ASCII letter a character folds to, or the character itself
when it folds to none. -/
def foldCase (c : Char) : Char :=
  if c = '\u017f' then 's' else if c = '\u212a' then 'k' else c.toLower

end TestScaffold.Text
