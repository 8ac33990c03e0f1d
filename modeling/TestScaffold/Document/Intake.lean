import TestScaffold.Declaration.Extract
import TestScaffold.Document.DocumentSymbol
import TestScaffold.Document.Using
import TestScaffold.Model.Grouping
import TestScaffold.Model.Symbol
/-!
# From a document to its classes

A source text and the symbols reported for it are enough to rebuild every class
of the document with its constructors, methods and usings. `intake` does that.

A symbol that cannot be read is recorded as a failure and the rest of the
document is read all the same: a member that fails leaves its class, a class
that fails takes only its own members along. Classes are found at the top and
inside namespaces, not inside other classes.
-/

namespace TestScaffold

/-- A symbol that could not be read. -/
structure SymbolFailure where
  /-- The name of the symbol. -/
  symbol : String
  /-- Why it could not be read. -/
  error : DeclarationError
deriving DecidableEq, Repr

/-- What a document holds. -/
structure Intake where
  /-- The classes in document order. -/
  classes : List Class := []
  /-- The symbols that could not be read, the members of a class in front of
  what follows the class. -/
  failures : List SymbolFailure := []
deriving Repr

namespace Intake

/-- What a class gets from one of the symbols inside it. -/
inductive Contribution where
  | constructor (value : Constructor)
  | method (value : Method)
  | failure (value : SymbolFailure)
  /-- The symbol is no member or is ignored. -/
  | nothing
deriving Repr

namespace Contribution

/-- The constructor of a contribution. -/
def constructor? : Contribution → Option Constructor
  | constructor c => some c
  | _ => none

/-- The method of a contribution. -/
def method? : Contribution → Option Method
  | method m => some m
  | _ => none

/-- The failure of a contribution. -/
def failure? : Contribution → Option SymbolFailure
  | failure f => some f
  | _ => none

/-- A member that was read, or the failure to read it. -/
def ofResult {α : Type} (symbol : DocumentSymbol) (member : α → Contribution) :
    Except DeclarationError α → Contribution
  | .ok value => member value
  | .error error => failure ⟨symbol.name, error⟩

end Contribution

/-- The declaration text of a symbol. The text in front of its name is the one
from the beginning of its range to the beginning of its name. -/
def declaration (source : Source) (kind : Declaration.Kind) (symbol : DocumentSymbol) :
    Except DeclarationError Declaration.Extracted := do
  let leading ← source.slice symbol.range.start symbol.selectionRange.start
  return Declaration.extract leading symbol.signature symbol.name.toList kind

/-- What a symbol inside a class contributes to it. Methods whose names are on
the list of ignored ones contribute nothing. -/
def contribution (source : Source) (ignored : List String) (symbol : DocumentSymbol) :
    Contribution :=
  if symbol.isConstructor then
    .ofResult symbol .constructor do
      let text ← declaration source .constructor symbol
      Constructor.ofParts text.definition text.parameters
  else if symbol.isMethod then
    if ignored.contains symbol.baseName then .nothing
    else
      .ofResult symbol .method do
        let text ← declaration source .method symbol
        Method.ofParts text.definition text.parameters
  else .nothing

/-- The class of a class-like symbol, without its members. It is in the enclosing
namespace or else in the one its signature names. -/
def classHeader (source : Source) (enclosing : Option String)
    (symbol : DocumentSymbol) : Except DeclarationError Class := do
  let text ← declaration source .classLike symbol
  let header ← Class.ofDefinition text.definition
  let qualification :=
    (Declaration.qualifiedNamespace? symbol.signature).map String.ofList
  return { header with
    containingNamespace := enclosing <|> qualification
    usings := source.usings symbol.range.start.line.toNat }

/-- What a class-like symbol adds to the document. -/
def ofClassSymbol (source : Source) (ignored : List String) (enclosing : Option String)
    (symbol : DocumentSymbol) : Intake :=
  match classHeader source enclosing symbol with
  | .error error => { failures := [⟨symbol.name, error⟩] }
  | .ok header =>
    let contributions := symbol.children.map (contribution source ignored)
    { classes := [{ header with
        constructors := contributions.filterMap Contribution.constructor?
        methods := contributions.filterMap Contribution.method? }]
      failures := contributions.filterMap Contribution.failure? }

/-- One part of a document and the part behind it. -/
protected def append (a b : Intake) : Intake :=
  ⟨a.classes ++ b.classes, a.failures ++ b.failures⟩

instance : Append Intake :=
  ⟨Intake.append⟩

mutual
/-- What a symbol adds to the document. A namespace passes its own name to the
symbols inside it. -/
def ofSymbol (source : Source) (ignored : List String) (enclosing : Option String) :
    DocumentSymbol → Intake
  | ⟨name, detail, kind, range, selectionRange, children⟩ =>
    match kind with
    | .namespaceKind => ofSymbols source ignored (some name) children
    | kind =>
      if kind.isClassLike then
        ofClassSymbol source ignored enclosing
          ⟨name, detail, kind, range, selectionRange, children⟩
      else {}
/-- What some symbols add to the document. -/
def ofSymbols (source : Source) (ignored : List String) (enclosing : Option String) :
    List DocumentSymbol → Intake
  | [] => {}
  | s :: symbols =>
    ofSymbol source ignored enclosing s ++ ofSymbols source ignored enclosing symbols
end

/-- The classes of a document, grouped by namespace in order of appearance. A
class without a namespace is in the global one. -/
def namespaces (parsed : Intake) : List Namespace :=
  (groupByKey (fun c : Class => c.containingNamespace.getD "") parsed.classes).map
    fun (name, classes) => { name, classes }

end Intake

/-- Read the classes of a document. -/
def intake (text : String) (symbols : List DocumentSymbol) (ignored : List String) :
    Intake :=
  Intake.ofSymbols ⟨text.toList⟩ ignored none symbols

end TestScaffold
