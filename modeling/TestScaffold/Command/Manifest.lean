import TestScaffold.Command.Arguments
import TestScaffold.Command.Session
import TestScaffold.Json.Shape
/-!
# Manifests

A manifest is a JSON file that lists documents, each with the paths of its source
text and of its symbols. Relative paths begin at the folder of the manifest.
-/

namespace TestScaffold

namespace DocumentPaths

/-- The names of the fields of a document. -/
def fieldNames : List String :=
  ["source", "symbols"]

/-- Read the paths of a document. -/
def ofJson? : Nat → Json → Option DocumentPaths
  | 0, _ => none
  | _ + 1, json => do
    let fields ← json.fields? fieldNames
    return ⟨← fields.required? "source" Json.text?, ← fields.required? "symbols" Json.text?⟩

/-- What the paths of a document look like in JSON. -/
def shape : Json.Shape :=
  .record "ManifestEntry" [("source", true, .text "path string"),
    ("symbols", true, .text "path string")]

/-- The same document as seen from the folder that its paths begin at. -/
def below (folder : String) (document : DocumentPaths) : DocumentPaths :=
  ⟨joinPath folder document.source, joinPath folder document.symbols⟩

end DocumentPaths

/-- The documents of a manifest. -/
def readManifest (path : String) : Task (List DocumentPaths) := do
  let text ← Task.readText .readManifest path
  match Json.read? (Json.list? DocumentPaths.ofJson?) text with
  | some documents =>
    let folder := String.ofList (Path.parent path.toList)
    return documents.map (DocumentPaths.below folder)
  | none =>
    let shape := Json.Shape.list DocumentPaths.shape
    throw (.invalidManifest path (shape.complaint Json.nestingLimit text))

end TestScaffold
