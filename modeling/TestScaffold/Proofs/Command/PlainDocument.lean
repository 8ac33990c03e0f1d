import TestScaffold.Command.Run
import TestScaffold.Proofs.Command.Batch
import TestScaffold.Proofs.Document.Declared
import TestScaffold.Proofs.Settings.Load
/-!
# Plain documents in a folder

A folder that holds a document with plain classes, the symbols of the document and a manifest
that lists it. The manifest is read back (`on_readManifest_of_text`), the document is loaded
as its classes (`Directory.document_plain`), and each of them has a test class
(`Suite.testClasses_plain`).

`plainFolder` has a test project besides (`projectsIn?_singleton`), so that the whole program can
be run in it.
-/

namespace TestScaffold

open Json (field)

/-! ## Manifests -/

namespace DocumentPaths

/-- Write down the paths of a document. -/
def toJson (document : DocumentPaths) : Json :=
  .record (field "source" (.text document.source) ++ field "symbols" (.text document.symbols))

theorem written_toJson (document : DocumentPaths) : Json.Written document.toJson := by
  simp [toJson]

theorem restores_toJson (document : DocumentPaths) :
    Json.Restores ofJson? document document.toJson := by
  intro budget hbudget
  cases budget with
  | zero => simp [toJson, Json.record, Json.nesting] at hbudget
  | succ budget => rfl

end DocumentPaths

/-- **A manifest that lists some documents is read as these**, seen from its folder. -/
theorem on_readManifest_of_text {path : String} {documents : List DocumentPaths} {s : Session}
    (h : s.directory.readText path
      = .ok (Json.array (documents.map DocumentPaths.toJson)).compact) :
    (readManifest path).on s = (.ok (documents.map
      (DocumentPaths.below (String.ofList (Path.parent path.toList)))), s) := by
  have hnesting : (Json.array (documents.map DocumentPaths.toJson)).nesting
      ≤ Json.nestingLimit :=
    Json.nesting_array_le_iff.mpr (List.forall_mem_map.mpr fun document _ =>
      (by decide : 1 ≤ 126))
  have hread : Json.read? (Json.list? DocumentPaths.ofJson?)
      (Json.array (documents.map DocumentPaths.toJson)).compact = some documents :=
    Json.read?_print (.head _)
      (Json.written_array_iff.mpr
        (List.forall_mem_map.mpr fun document _ => document.written_toJson))
      (Json.restores_list fun document _ => document.restores_toJson) hnesting
  unfold readManifest
  rw [Task.on_bind_ok (by rw [Task.on_readText, h]; rfl), hread]
  rfl

/-! ## Documents -/

/-- The text that lists the symbols of a document with plain classes. -/
def plainSymbolsText (names : List String) : String :=
  (Json.array ((plainSymbols names).map DocumentSymbol.toJson)).compact

/-- **A document with plain classes is loaded as these classes.** -/
theorem Directory.document_plain {d : Directory} {paths : DocumentPaths} {names : List String}
    (h : ∀ name ∈ names, IsPlainName name) (hlength : names.length < 2 ^ 32)
    (hsource : d.readText paths.source = .ok (plainText names))
    (hsymbols : d.readText paths.symbols = .ok (plainSymbolsText names)) :
    d.document [] paths = .ok { classes := names.map Class.plain } := by
  have hnesting : (Json.array ((plainSymbols names).map DocumentSymbol.toJson)).nesting
      ≤ Json.nestingLimit := by
    refine Json.nesting_array_le_iff.mpr (List.forall_mem_map.mpr fun symbol hsymbol => ?_)
    obtain ⟨⟨name, line⟩, -, rfl⟩ := List.mem_map.mp hsymbol
    exact (by decide : 5 ≤ 126)
  exact document_eq_ok_iff.mpr ⟨_, _, _, hsource, hsymbols,
    DocumentSymbol.listOfJsonText?_compact hnesting, intake_plainText h hlength⟩

/-- The test class of a plain class. -/
def Suite.TestClass.plain (name : String) : Suite.TestClass :=
  .ofClass (Class.plain name)

/-- Each plain class has a test class. -/
theorem Suite.testClasses_plain (names : List String) :
    Suite.testClasses (names.map Class.plain) = names.map TestClass.plain := by
  have happend : ∀ a b : List Class, Suite.testClasses (a ++ b)
      = Suite.testClasses a ++ Suite.testClasses b := fun a b => by simp [testClasses]
  induction names with
  | nil => rfl
  | cons name names ih =>
    have hname : Suite.testClasses [Class.plain name] = [TestClass.plain name] := rfl
    rw [List.map_cons, ← List.singleton_append, happend, hname, ih]
    rfl

/-! ## A test project -/

/-- A folder with a test project, a document with plain classes, and a manifest that lists
it. -/
def plainFolder (tests : List (Location × Entry)) (names : List String) : Directory :=
  ⟨(["T"], .folder)
    :: (["T", "A.Tests.csproj"], .file (Text.encode "<IsTestProject>true</IsTestProject>"))
    :: tests
    ++ [(["d.cs"], .file (Text.encode (plainText names))),
      (["d.json"], .file (Text.encode (plainSymbolsText names))),
      (["m.json"], .file (Text.encode
        (Json.array [DocumentPaths.toJson ⟨"d.cs", "d.json"⟩]).compact))]⟩

/-- The project in such a folder. -/
def plainProject : Project :=
  ⟨"A.Tests", "./T/A.Tests.csproj", "./T", "A.Tests", true⟩

/-- The target in such a folder. -/
def plainTarget : Target :=
  ⟨plainProject, ({} : GenerateSettings).forProject plainProject⟩

/-- The paths of the document in such a folder. -/
def plainPaths : DocumentPaths :=
  ⟨"d.cs", "d.json"⟩

/-- **The document is loaded** wherever its files are at these paths. -/
theorem Directory.document_plainPaths {d : Directory} {names : List String}
    (h : ∀ name ∈ names, IsPlainName name) (hlength : names.length < 2 ^ 32)
    (hsource : d.lookup? ["d.cs"] = some (.file (Text.encode (plainText names))))
    (hsymbols : d.lookup? ["d.json"] = some (.file (Text.encode (plainSymbolsText names)))) :
    d.document [] plainPaths = .ok { classes := names.map Class.plain } := by
  refine document_plain h hlength ?_ ?_
  · exact readText_eq_ok_iff.mpr ⟨["d.cs"], _, ⟨rfl, by decide⟩, hsource, Text.decode?_encode _⟩
  · exact readText_eq_ok_iff.mpr
      ⟨["d.json"], _, ⟨rfl, by decide⟩, hsymbols, Text.decode?_encode _⟩

/-- The names `A` and `B` may be those of plain classes. -/
theorem isPlainName_pair : ∀ name ∈ ["A", "B"], IsPlainName name := by
  have hname : ∀ name ∈ ["A", "B"], IsIdentifier name
      ∧ (name ≠ "class" ∧ name ≠ "struct") ∧ name.length < 2 ^ 31 := by decide +kernel
  exact fun name h => ⟨(hname name h).1, (hname name h).2.1, (hname name h).2.2⟩

/-- **The only project of a workspace**, in whichever order its files are seen. -/
theorem projectsIn?_singleton {d : Directory} {user : UserFolders} {workspace : String}
    {base : Location} {project : Project} (hfolder : d.hasFolder workspace = true)
    (hlocate : d.locate workspace = .ok base)
    (hproject : ((d.visibleFiles user workspace base).filterMap fun names => do
        let fileName ← names.getLast?
        guard (Project.isProjectFile fileName)
        let path := spellPath workspace names
        return Project.ofFile fileName path (← (d.readText path).toOption)) = [project]) :
    projectsIn? d user workspace = some [project] := by
  unfold projectsIn?
  rw [hfolder, hlocate]
  refine congrArg some (List.perm_singleton.mp ?_)
  rw [← hproject]
  exact (List.mergeSort_perm ..).filterMap _

end TestScaffold
