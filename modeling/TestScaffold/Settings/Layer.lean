import TestScaffold.Json.Value
/-!
# Layers of settings

Settings come from several places, each of which may say something about any of
them. What one place says is a *layer*, an object; a higher layer is laid over a
lower one name by name. Objects are merged, and any other value, lists among
them, takes the place of the lower one.
-/

namespace TestScaffold.Json

/-- Give a member of an object a new value, at its old place or at the end. -/
def setMember (name : Option String) (value : Json) :
    List (Option String × Json) → List (Option String × Json)
  | [] => [(name, value)]
  | (n, v) :: rest =>
    if n = name then (n, value) :: rest else (n, v) :: setMember name value rest

mutual
/-- A value laid over a lower one. -/
def layOver (low : Option Json) : Json → Json
  | object members =>
    match low with
    | some (object below) => object (layMembers below members)
    | _ => object (layMembers [] members)
  | high => high
/-- The members of an object laid over those of a lower one. -/
def layMembers (below : List (Option String × Json)) :
    List (Option String × Json) → List (Option String × Json)
  | [] => below
  | (name, value) :: members =>
    layMembers (setMember name (layOver (below.lookup name) value) below) members
end

/-- Some layers laid over one another, the lowest one first. -/
def overlay (layers : List Json) : Json :=
  layers.foldl (fun low high => layOver (some low) high) (object [])

end TestScaffold.Json
