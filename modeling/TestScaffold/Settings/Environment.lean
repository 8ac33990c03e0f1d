import TestScaffold.Settings.InlineValue
import TestScaffold.Settings.Layer
/-!
# Settings in the environment

Environment variables whose names begin with `DDT_`, in any case, hold settings.
The rest of the name, in lower case, is the path to the setting, its parts set
apart by two underscores or a dot. Blanks around the name and around that rest do
not count. A variable with an empty part in its path means nothing.
-/

namespace TestScaffold

/-- Environment variables with their values, in order. -/
abbrev Environment := List (String × String)

namespace Environment

/-- The value of a variable. An environment is looked up by how its entries
`name=value` begin, so that the name may go on into the value: `A=B` stands for what
is behind `B=` in the value of `A`. -/
def value? (environment : Environment) (name : List Char) : Option (List Char) :=
  match Text.cutWhere? (· == '=') name with
  | none => (environment.lookup (String.ofList name)).map String.toList
  | some (name, start) => do
    let value ← environment.lookup (String.ofList name)
    Text.stripStart? (start ++ ['=']) value.toList

/-- What the names of settings begin with, in lower case. -/
def marker : List Char :=
  "ddt_".toList

/-- The path of the setting that a variable holds, if it holds one. -/
def settingPath? (name : String) : Option (List String) := do
  let rest ← Text.stripStart? marker ((Text.trim name.toList).map Char.toLower)
  let parts := (Text.splitAt ['_', '_'] (Text.trim rest)).flatMap
    (Text.splitWhere (· == '.'))
  guard (parts.all fun part => !part.isEmpty)
  return parts.map String.ofList

/-- A value at the end of a path. -/
def nest (path : List String) (value : Json) : Json :=
  path.foldr (fun name inner => .record [(name, inner)]) value

/-- The layer of the settings in the environment. A later variable stands over an
earlier one. -/
def layer (environment : Environment) : Json :=
  Json.overlay (environment.filterMap fun (name, value) =>
    (settingPath? name).map fun path => nest path (InlineValue.read value))

end Environment

end TestScaffold
