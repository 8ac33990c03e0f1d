import TestScaffold.Json.Value
/-!
# Tables of a TOML document

A TOML document is a table of tables, written in any order: a table may be named
by its header, by the header of a table inside it or by a dotted key. How a table
came about decides what may still be added to it:

* a table has at most one header of its own;
* a dotted key adds only to tables that dotted keys made;
* a header passes through any table, and in a list of tables it means the last
  one;
* no key is given twice.
-/

namespace TestScaffold.Toml

/-- How a table came about. -/
inductive Origin where
  /-- By its own header, or as the whole document. -/
  | header
  /-- By the header of a table inside it. -/
  | outer
  /-- By a dotted key. -/
  | dotted
deriving DecidableEq, Repr

/-- What a key stands for. -/
inductive Node where
  /-- A value, which is never added to. -/
  | value (value : Json)
  /-- A table. -/
  | table (origin : Origin) (entries : List (String × Node))
  /-- A list of tables: the earlier ones and the last one. -/
  | tables (earlier : List (List (String × Node))) (last : List (String × Node))
deriving Repr

/-- The entries of a table. -/
abbrev Entries := List (String × Node)

/-- Give a key a new meaning, at its old place or at the end. -/
def Entries.set (entries : Entries) (key : String) (node : Node) : Entries :=
  match entries with
  | [] => [(key, node)]
  | (k, n) :: rest => if k = key then (k, node) :: rest else (k, n) :: Entries.set rest key node

/-- Change the table at the end of a path with `change`, which also learns how
that table came about. Tables that do not exist are made with the origin `made`;
dotted keys do not pass through tables that have a header. -/
def descend (made : Origin) (change : Origin → Entries → Option Entries) :
    List String → Origin → Entries → Option Entries
  | [], origin, entries => change origin entries
  | key :: path, _, entries =>
    match entries.lookup key with
    | none => do
      let inner ← descend made change path made []
      return entries.set key (.table made inner)
    | some (.value _) => none
    | some (.table origin inner) =>
      if made = .dotted ∧ origin = .header then none
      else do
        let inner ← descend made change path origin inner
        return entries.set key (.table origin inner)
    | some (.tables earlier last) => do
      let last ← descend made change path .header last
      return entries.set key (.tables earlier last)

/-- A dotted key: the path to a table and the name in it. -/
structure KeyPath where
  path : List String
  name : String
deriving DecidableEq, Repr

/-- Add a value under a dotted key. -/
def addValue (entries : Entries) (key : KeyPath) (value : Json) : Option Entries :=
  let add (origin : Origin) (inner : Entries) : Option Entries :=
    if (!key.path.isEmpty && origin != .dotted) || (inner.lookup key.name).isSome then none
    else some (inner ++ [(key.name, .value value)])
  descend .dotted add key.path .header entries

/-- Add values under their dotted keys. -/
def addValues (entries : Entries) (values : List (KeyPath × Json)) : Option Entries :=
  values.foldlM (fun entries (key, value) => addValue entries key value) entries

/-- What stands under one header. -/
structure Section where
  /-- The table the header names. -/
  key : KeyPath
  /-- Whether the header begins a new table of a list. -/
  inList : Bool
  /-- The values under the header. -/
  values : List (KeyPath × Json)

/-- Add the table of a header. -/
def addSection (entries : Entries) (s : Section) : Option Entries :=
  let add (_ : Origin) (inner : Entries) : Option Entries :=
    match s.inList, inner.lookup s.key.name with
    | false, none => do
      return inner.set s.key.name (.table .header (← addValues [] s.values))
    | false, some (.table .outer old) => do
      return inner.set s.key.name (.table .header (← addValues old s.values))
    | true, none => do
      return inner.set s.key.name (.tables [] (← addValues [] s.values))
    | true, some (.tables earlier last) => do
      return inner.set s.key.name (.tables (earlier ++ [last]) (← addValues [] s.values))
    | _, _ => none
  descend .outer add s.key.path .header entries

mutual
/-- The value of a node. -/
def Node.toJson : Node → Json
  | .value value => value
  | .table _ entries => .object (membersOf entries)
  | .tables earlier last => .array (objectsOf earlier ++ [.object (membersOf last)])
/-- The members of a table. -/
def membersOf : List (String × Node) → List (Option String × Json)
  | [] => []
  | (key, node) :: entries => (some key, node.toJson) :: membersOf entries
/-- The values of some tables. -/
def objectsOf : List (List (String × Node)) → List Json
  | [] => []
  | entries :: tables => .object (membersOf entries) :: objectsOf tables
end

end TestScaffold.Toml
