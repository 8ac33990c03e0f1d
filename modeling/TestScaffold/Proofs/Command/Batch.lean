import TestScaffold.Json.Printer
import TestScaffold.Proofs.Command.Write
/-!
# Writing many documents at once

`writeDocuments` gives the project its global usings once, behind all documents.
`writeSingly` writes one document after another and gives the project its global usings
behind each one that a file was written for. Both leave the same directory
(`sameEntries_writeSingly`), as long as the file with the global usings is neither read
nor written for a document (`UsingsApart`).

The two schedules are related by a simulation. All along, the directory of the second one
has the entries of the first one's, with global usings behind the files written so far. For
a single document this is kept because its work comes to the same in two directories that
differ in the global usings alone (`Task.AlikeAt`): it succeeds or fails alike and writes
the same.
-/

namespace TestScaffold

/-! ## Global usings apart -/

namespace Directory

variable {d e : Directory} {target : Target} {files more : List WrittenFile}
  {location : Location}

/-- Global usings are one file; everything else is as before. -/
theorem lookup?_withUsingsAfter_of_not (h : ¬d.FileAt target.usingsPath location) :
    (d.withUsingsAfter target files).lookup? location = d.lookup? location := by
  unfold withUsingsAfter
  split
  · rfl
  · exact lookup?_withFile_of_not h

/-- Global usings are no folder. -/
theorem SameEntries.folders_of_withUsingsAfter
    (h : (d.withUsingsAfter target files).SameEntries e) : d.SameFolders e :=
  (d.growsInto_withUsingsAfter target files).folders.trans h.folders

/-- A path that is not that of the global usings leads to what it led to before. -/
theorem SameEntries.lookup?_of_withUsingsAfter
    (h : (d.withUsingsAfter target files).SameEntries e) {path : String}
    (hpath : ¬d.SameFile target.usingsPath path) (hat : d.FileAt path location) :
    e.lookup? location = d.lookup? location := by
  rw [h, lookup?_withUsingsAfter_of_not fun husings => hpath ⟨location, husings, hat⟩]

/-- Global usings come before or behind another file. -/
theorem sameEntries_set_withUsingsAfter (hfolder : d.lookup? location ≠ some .folder)
    (hother : ¬d.FileAt target.usingsPath location) (bytes : List UInt8) :
    ((d.withUsingsAfter target files).set location (.file bytes)).SameEntries
      ((d.set location (.file bytes)).withUsingsAfter target files) := by
  unfold withUsingsAfter
  split
  · exact .refl _
  · exact sameEntries_set_withFile hfolder hother bytes

/-- **Global usings come once**, however often files are written. -/
theorem sameEntries_withUsingsAfter_append
    (h : (d.withUsingsAfter target files).SameEntries e) :
    (d.withUsingsAfter target (files ++ more)).SameEntries (e.withUsingsAfter target more) := by
  cases files with
  | nil =>
    cases more with
    | nil => exact h
    | cons file more =>
      rw [withUsingsAfter_nil] at h
      rw [List.nil_append, withUsingsAfter_cons, withUsingsAfter_cons]
      exact h.withFile _ _
  | cons file files =>
    cases more with
    | nil => rwa [List.append_nil, withUsingsAfter_nil]
    | cons next more =>
      rw [withUsingsAfter_cons] at h
      rw [List.cons_append, withUsingsAfter_cons, withUsingsAfter_cons]
      exact (sameEntries_withFile_withFile d _ _).trans (h.withFile _ _)

end Directory

/-! ## The same work in two sessions -/

/-- **Some work comes to the same in two sessions**, of which the second one has global
usings behind some files. -/
structure Task.AlikeAt {α : Type} (target : Target) (files : List WrittenFile) (work : Task α)
    (s s' : Session) : Prop where
  /-- It succeeds alike. -/
  result : ∀ a, (work.on s').1 = .ok a ↔ (work.on s).1 = .ok a
  /-- The directories behind it differ in the global usings alone. -/
  directory : ((work.on s).2.directory.withUsingsAfter target files).SameEntries
    (work.on s').2.directory

namespace Task

variable {α β : Type} {target : Target} {files : List WrittenFile} {work : Task α}
  {s s' : Session}

/-- Work that does nothing. -/
theorem AlikeAt.of_pure (h : (s.directory.withUsingsAfter target files).SameEntries s'.directory)
    (a : α) : (pure a : Task α).AlikeAt target files s s' :=
  ⟨fun _ => Iff.rfl, h⟩

/-- Work that fails in both sessions and keeps them. -/
theorem AlikeAt.of_error (h : (s.directory.withUsingsAfter target files).SameEntries s'.directory)
    {error error' : CommandError} (hwork : work.on s = (.error error, s))
    (hwork' : work.on s' = (.error error', s')) : work.AlikeAt target files s s' :=
  ⟨fun a => by simp [hwork, hwork'], by rw [hwork, hwork']; exact h⟩

/-- Work that puts the same bytes at a location in both sessions, which is not that of the
global usings. -/
theorem AlikeAt.of_set (h : (s.directory.withUsingsAfter target files).SameEntries s'.directory)
    {location : Location} (hfolder : s.directory.lookup? location ≠ some .folder)
    (hother : ¬s.directory.FileAt target.usingsPath location) {a : α} {bytes : List UInt8}
    (hwork : work.on s
      = (.ok a, { s with directory := s.directory.set location (.file bytes) }))
    (hwork' : work.on s'
      = (.ok a, { s' with directory := s'.directory.set location (.file bytes) })) :
    work.AlikeAt target files s s' := by
  refine ⟨fun b => by rw [hwork, hwork'], ?_⟩
  rw [hwork, hwork']
  exact (Directory.sameEntries_set_withUsingsAfter hfolder hother bytes).symm.trans
    (h.set (Directory.ne_nil_of_lookup? hfolder) _)

/-- **Work made of two pieces** comes to the same when both pieces do. -/
theorem AlikeAt.bind (h : work.AlikeAt target files s s') {next : α → Task β}
    (hnext : ∀ a, (work.on s).1 = .ok a →
      (next a).AlikeAt target files (work.on s).2 (work.on s').2) :
    (work >>= next).AlikeAt target files s s' := by
  obtain ⟨hresult, hdirectory⟩ := h
  rcases hs : work.on s with ⟨error | a, t⟩ <;> rcases hs' : work.on s' with ⟨error' | a', t'⟩ <;>
    rw [hs, hs'] at hresult hdirectory
  · refine ⟨fun b => ?_, ?_⟩ <;> rw [on_bind_error hs, on_bind_error hs']
    · simp
    · exact hdirectory
  · simpa using hresult a'
  · simpa using hresult a
  · obtain rfl : a' = a := by simpa using hresult a
    have hrest := hnext a' (by rw [hs])
    rw [hs, hs'] at hrest
    refine ⟨fun b => ?_, ?_⟩ <;> rw [on_bind_ok hs, on_bind_ok hs']
    · exact hrest.result b
    · exact hrest.directory

end Task

/-! ## Loading -/

/-- A document is loaded when its texts are read and the second one lists symbols. -/
theorem Directory.document_eq_ok_iff {d : Directory} {ignored : List String}
    {paths : DocumentPaths} {parsed : Intake} :
    d.document ignored paths = .ok parsed ↔ ∃ source symbols list,
      d.readText paths.source = .ok source ∧ d.readText paths.symbols = .ok symbols
        ∧ DocumentSymbol.listOfJsonText? symbols = some list
        ∧ intake source list ignored = parsed := by
  unfold Directory.document
  cases d.readText paths.source with
  | error cause => simp [Except.mapError, bind, Except.bind]
  | ok source =>
    cases d.readText paths.symbols with
    | error cause => simp [Except.mapError, bind, Except.bind]
    | ok symbols =>
      simp only [Except.mapError, bind, Except.bind]
      cases hlist : DocumentSymbol.listOfJsonText? symbols <;>
        simp [hlist, pure, Except.pure]

theorem Directory.testClasses_eq_ok_iff {d : Directory} {ignored : List String}
    {paths : DocumentPaths} {tests : List Suite.TestClass} :
    d.testClasses ignored paths = .ok tests ↔
      ∃ parsed, d.document ignored paths = .ok parsed
        ∧ Suite.testClasses parsed.classes = tests := by
  unfold Directory.testClasses
  cases d.document ignored paths <;> simp [Except.map]

section

variable {target : Target} {files : List WrittenFile} {paths : DocumentPaths}
  {s s' : Session}

/-- The test classes of a document do not depend on global usings that are not read for
them. -/
theorem alikeAt_loadTestClasses (quiet : Bool) (ignored : List String)
    (h : (s.directory.withUsingsAfter target files).SameEntries s'.directory)
    (hsource : ¬s.directory.SameFile target.usingsPath paths.source)
    (hsymbols : ¬s.directory.SameFile target.usingsPath paths.symbols) :
    (loadTestClasses quiet ignored paths).AlikeAt target files s s' := by
  have hread : ∀ {path text}, ¬s.directory.SameFile target.usingsPath path →
      (s'.directory.readText path = .ok text ↔ s.directory.readText path = .ok text) :=
    fun hpath => h.folders_of_withUsingsAfter.readText_iff fun _ hat =>
      h.lookup?_of_withUsingsAfter hpath hat
  obtain ⟨notices, hload⟩ := exists_on_loadTestClasses quiet ignored paths s
  obtain ⟨notices', hload'⟩ := exists_on_loadTestClasses quiet ignored paths s'
  refine ⟨fun tests => ?_, by rw [hload, hload']; exact h⟩
  rw [hload, hload']
  simp only [Directory.testClasses_eq_ok_iff, Directory.document_eq_ok_iff, hread hsource,
    hread hsymbols]

/-! ## Test classes -/

variable {folder : String} {t : Suite.TestClass} {tests : List Suite.TestClass}

/-- **A test class is written alike** when its file is not that of the global usings. -/
theorem alikeAt_writeTestClass (settings : GenerateSettings)
    (h : (s.directory.withUsingsAfter target files).SameEntries s'.directory)
    (hpath : ¬s.directory.SameFile target.usingsPath (joinPath folder t.fileName)) :
    (writeTestClass folder settings t).AlikeAt target files s s' := by
  have hfolders := h.folders_of_withUsingsAfter
  have hother : ∀ {location}, s.directory.FileAt (joinPath folder t.fileName) location →
      ¬s.directory.FileAt target.usingsPath location := fun hat husings =>
    hpath ⟨_, husings, hat⟩
  have hentry : ∀ {location}, s.directory.FileAt (joinPath folder t.fileName) location →
      s'.directory.lookup? location = s.directory.lookup? location :=
    h.lookup?_of_withUsingsAfter hpath
  rcases s.directory.writes_cases (joinPath folder t.fileName) with
    ⟨location, hat, hnone⟩ | ⟨location, bytes, old, hat, hfile, hdecode⟩ | hunwritable
  · exact .of_set h (by simp [hnone]) (hother hat) (on_writeTestClass_created hat hnone)
      (on_writeTestClass_created (hfolders.fileAt_iff.mpr hat) ((hentry hat).trans hnone))
  · exact .of_set h (by simp [hfile]) (hother hat)
      (on_writeTestClass_appended hat hfile hdecode)
      (on_writeTestClass_appended (hfolders.fileAt_iff.mpr hat) ((hentry hat).trans hfile)
        hdecode)
  · obtain ⟨error, herror⟩ : ∃ error, (writeTestClass folder settings t).on s = (.error error, s) :=
      exists_on_writeTestClass_failed hunwritable
    obtain ⟨error', herror'⟩ :
        ∃ error, (writeTestClass folder settings t).on s' = (.error error, s') := by
      refine exists_on_writeTestClass_failed fun location hat => ?_
      have hat' := hfolders.fileAt_iff.mp hat
      unfold Directory.Unwritable
      rw [hentry hat']
      exact hunwritable location hat'
    exact .of_error h herror herror'

theorem alikeAt_writeTestClasses (settings : GenerateSettings)
    (h : (s.directory.withUsingsAfter target files).SameEntries s'.directory)
    (htests : ∀ t ∈ tests,
      ¬s.directory.SameFile target.usingsPath (joinPath folder t.fileName)) :
    (writeTestClasses folder settings tests).AlikeAt target files s s' := by
  induction tests generalizing s s' with
  | nil =>
    rw [writeTestClasses]
    exact .of_pure h []
  | cons t tests ih =>
    rw [writeTestClasses]
    obtain ⟨ht, htests⟩ := List.forall_mem_cons.mp htests
    have hwrite := alikeAt_writeTestClass settings h ht
    refine hwrite.bind fun file _ => ?_
    have hfolders := (keeps_writeTestClass folder settings t s).folders
    have hrest := ih hwrite.directory fun t ht => mt hfolders.sameFile_iff.mp (htests t ht)
    refine hrest.bind fun more _ => ?_
    exact .of_pure hrest.directory (file :: more)

/-- **A document is written alike** when the global usings are neither read nor written for
it. -/
theorem alikeAt_writeDocument {quiet : Bool} {ignored : List String}
    (h : (s.directory.withUsingsAfter target files).SameEntries s'.directory)
    (hsource : ¬s.directory.SameFile target.usingsPath paths.source)
    (hsymbols : ¬s.directory.SameFile target.usingsPath paths.symbols)
    (htests : ∀ tests, ((loadTestClasses quiet ignored paths).on s).1 = .ok tests →
      ∀ t ∈ tests, ¬s.directory.SameFile target.usingsPath
        (joinPath target.project.directory t.fileName)) :
    (writeDocument quiet ignored target paths).AlikeAt target files s s' := by
  have hload := alikeAt_loadTestClasses quiet ignored h hsource hsymbols
  refine hload.bind fun tests hok => alikeAt_writeTestClasses _ hload.directory ?_
  rw [← keeps_loadTestClasses quiet ignored paths s]
  exact htests tests hok

end

/-! ## Two schedules -/

/-- Write the test classes of some documents one after another, as if each one were the only
one: the global usings it needs come right behind it, and what goes wrong is left at that. -/
def writeSingly (quiet : Bool) (ignored : List String) (target : Target) :
    List DocumentPaths → Task Unit
  | [] => return ()
  | document :: documents => do
    let _ ← Task.attempt do
      let files ← writeDocument quiet ignored target document
      usingsAfter target files
    writeSingly quiet ignored target documents

/-- **The global usings of a project are apart from some documents**: the path of their file
does not lead to what is read for a document, nor to the file of a test class that the
document has when it is its turn. -/
structure UsingsApart (quiet : Bool) (ignored : List String) (target : Target)
    (documents : List DocumentPaths) (s : Session) : Prop where
  /-- They are no source text. -/
  sources : ∀ document ∈ documents,
    ¬s.directory.SameFile target.usingsPath document.source
  /-- They are no symbols. -/
  symbols : ∀ document ∈ documents,
    ¬s.directory.SameFile target.usingsPath document.symbols
  /-- They are not where tests are written. -/
  tests : ∀ before document after, documents = before ++ document :: after →
    ∀ tests, ((loadTestClasses quiet ignored document).on
        ((writeEach quiet ignored target before).on s).2).1 = .ok tests →
      ∀ t ∈ tests, ¬s.directory.SameFile target.usingsPath
        (joinPath target.project.directory t.fileName)

section

variable {quiet : Bool} {ignored : List String} {target : Target}
  {document : DocumentPaths} {documents before : List DocumentPaths} {s s' : Session}

/-- One document of many, and the global usings it needs. -/
theorem on_writeSingly_cons :
    (writeSingly quiet ignored target (document :: documents)).on s
      = (writeSingly quiet ignored target documents).on
          ((do
            let files ← writeDocument quiet ignored target document
            usingsAfter target files : Task (Option String)).on s).2 := by
  rw [writeSingly, Task.on_bind_ok (Task.on_attempt ..)]

/-- The documents of a list that are still to be written. -/
theorem UsingsApart.tail (h : UsingsApart quiet ignored target (document :: documents) s) :
    UsingsApart quiet ignored target documents
      ((writeDocument quiet ignored target document).on s).2 := by
  have hfolders := (keeps_writeDocument quiet ignored target document s).folders
  refine ⟨fun next hnext => ?_, fun next hnext => ?_,
    fun before next after heq tests hok t ht => ?_⟩
  · exact mt hfolders.sameFile_iff.mp (h.sources next (.tail _ hnext))
  · exact mt hfolders.sameFile_iff.mp (h.symbols next (.tail _ hnext))
  · refine mt hfolders.sameFile_iff.mp
      (h.tests (document :: before) next after (by rw [heq, List.cons_append]) tests ?_ t ht)
    rw [on_writeEach_cons]
    exact hok

/-- Files of test classes are named for it. -/
theorem Suite.exists_fileName_eq {classes : List Class} {t : Suite.TestClass}
    (h : t ∈ Suite.testClasses classes) : ∃ name, t.fileName = name ++ "Tests.cs" := by
  obtain ⟨c, -, rfl⟩ := List.mem_map.mp (List.mem_of_mem_filter h)
  exact ⟨c.name, String.append_assoc ..⟩

/-- **Global usings whose file is not named like that of a test class** are where no tests
are written, whatever the documents hold. -/
theorem UsingsApart.of_name {front : List String} {name : String}
    (hsteps : Directory.steps target.usingsPath = front ++ [name])
    (hname : name ≠ "." ∧ name ≠ "..") (hending : ¬"Tests.cs".toList <:+ name.toList)
    (hsources : ∀ document ∈ documents,
      ¬s.directory.SameFile target.usingsPath document.source)
    (hsymbols : ∀ document ∈ documents,
      ¬s.directory.SameFile target.usingsPath document.symbols) :
    UsingsApart quiet ignored target documents s := by
  refine ⟨hsources, hsymbols, fun before document after _ tests hload t ht hsame => hending ?_⟩
  obtain ⟨notices, hrun⟩ := exists_on_loadTestClasses quiet ignored document
    ((writeEach quiet ignored target before).on s).2
  rw [hrun] at hload
  obtain ⟨parsed, -, rfl⟩ := Directory.testClasses_eq_ok_iff.mp hload
  obtain ⟨own, hown⟩ := Suite.exists_fileName_eq ht
  obtain ⟨location, husings, htest⟩ := hsame
  rw [hown] at htest
  obtain ⟨before, last, hlast⟩ := Directory.exists_steps_joinPath target.project.directory own
    (show "Tests.cs".toList ≠ [] ∧ '/' ∉ "Tests.cs".toList by decide)
  have hdots : last ++ "Tests.cs" ≠ "." ∧ last ++ "Tests.cs" ≠ ".." := by
    have hlength : "Tests.cs".length = 8 ∧ ".".length = 1 ∧ "..".length = 2 := by decide
    constructor <;> intro heq <;> have := congrArg String.length heq <;>
      rw [String.length_append] at this <;> omega
  have hsuffix : name = last ++ "Tests.cs" := Option.some.inj
    ((husings.getLast?_eq hsteps hname).symm.trans (htest.getLast?_eq hlast hdots))
  rw [hsuffix, String.toList_append]
  exact List.suffix_append _ _

/-- **The simulation**: all along, the directory of the second schedule is that of the first
one with global usings behind the files written so far. -/
theorem exists_on_writeEach {written : List WrittenFile}
    (h : (s.directory.withUsingsAfter target written).SameEntries s'.directory)
    (hapart : UsingsApart quiet ignored target documents s) :
    ∃ files failures t, (writeEach quiet ignored target documents).on s = (.ok (files, failures), t)
      ∧ (t.directory.withUsingsAfter target (written ++ files)).SameEntries
        ((writeSingly quiet ignored target documents).on s').2.directory := by
  induction documents generalizing s s' written with
  | nil => exact ⟨[], [], s, rfl, by rwa [List.append_nil]⟩
  | cons document documents ih =>
    have hdocument := alikeAt_writeDocument h (hapart.sources _ (.head _))
      (hapart.symbols _ (.head _)) (hapart.tests [] document documents rfl)
    have htail := hapart.tail
    obtain ⟨hresult, hdirectory⟩ := hdocument
    rw [on_writeSingly_cons]
    -- a document that fails gets no global usings in either schedule, whatever it wrote before
    rcases hs : (writeDocument quiet ignored target document).on s with ⟨error | new, t⟩ <;>
      rcases hs' : (writeDocument quiet ignored target document).on s' with ⟨error' | new', t'⟩ <;>
      rw [hs, hs'] at hresult hdirectory <;> rw [hs] at htail
    · obtain ⟨files, failures, u, hrest, hu⟩ := ih hdirectory htail
      refine ⟨files, ⟨document.source, error⟩ :: failures, u, ?_, ?_⟩
      · rw [on_writeEach_cons, hs]
        dsimp only
        rw [hrest]
        rfl
      · rwa [Task.on_bind_error hs']
    · simpa using hresult new'
    · simpa using hresult new
    · obtain rfl : new' = new := by simpa using hresult new
      -- what the document wrote counts as written for those behind it
      have husings : (t.directory.withUsingsAfter target (written ++ new')).SameEntries
          ((usingsAfter target new').on t').2.directory := by
        rw [directory_on_usingsAfter]
        exact Directory.sameEntries_withUsingsAfter_append hdirectory
      obtain ⟨files, failures, u, hrest, hu⟩ := ih husings htail
      refine ⟨new' ++ files, failures, u, ?_, ?_⟩
      · rw [on_writeEach_cons, hs]
        dsimp only
        rw [hrest]
        rfl
      · rwa [Task.on_bind_ok hs', ← List.append_assoc]

/-! ## Documents that cannot be loaded -/

/-- A document that cannot be loaded writes nothing. -/
theorem on_writeDocument_of_unloadable (quiet : Bool) (target : Target) {error : CommandError}
    (h : ((loadDocument ignored document).on s).1 = .error error) :
    (writeDocument quiet ignored target document).on s = (.error error, s) := by
  rw [on_loadDocument] at h
  dsimp only at h
  refine Task.on_bind_error (on_loadTestClasses_error ?_) _
  rw [Directory.testClasses, h]
  rfl

/-- Documents are written to the end. -/
theorem exists_on_writeEach_eq_ok (quiet : Bool) (ignored : List String) (target : Target)
    (documents : List DocumentPaths) (s : Session) :
    ∃ files failures t,
      (writeEach quiet ignored target documents).on s = (.ok (files, failures), t) := by
  induction documents generalizing s with
  | nil => exact ⟨[], [], s, rfl⟩
  | cons document documents ih =>
    obtain ⟨files, failures, t, hrest⟩ :=
      ih ((writeDocument quiet ignored target document).on s).2
    rw [on_writeEach_cons]
    dsimp only
    rw [hrest]
    cases ((writeDocument quiet ignored target document).on s).1 with
    | error error => exact ⟨_, _, t, rfl⟩
    | ok written => exact ⟨_, _, t, rfl⟩

/-- **A document that writes nothing may be left out**: the others write the same files. -/
theorem exists_on_writeEach_append (after : List DocumentPaths) {error : CommandError}
    (h : (writeDocument quiet ignored target document).on
        ((writeEach quiet ignored target before).on s).2
      = (.error error, ((writeEach quiet ignored target before).on s).2)) :
    ∃ files failures failures' t,
      (writeEach quiet ignored target (before ++ document :: after)).on s
          = (.ok (files, failures), t)
        ∧ (writeEach quiet ignored target (before ++ after)).on s
          = (.ok (files, failures'), t) := by
  induction before generalizing s with
  | nil =>
    have hfailed : (writeDocument quiet ignored target document).on s = (.error error, s) := h
    obtain ⟨files, failures, t, hrest⟩ := exists_on_writeEach_eq_ok quiet ignored target after s
    refine ⟨files, ⟨document.source, error⟩ :: failures, failures, t, ?_, hrest⟩
    rw [List.nil_append, on_writeEach_cons, hfailed]
    dsimp only
    rw [hrest]
    rfl
  | cons first before ih =>
    rw [on_writeEach_cons] at h
    obtain ⟨files, failures, failures', t, hwith, hwithout⟩ := ih h
    rw [List.cons_append, List.cons_append, on_writeEach_cons, on_writeEach_cons]
    dsimp only
    rw [hwith, hwithout]
    cases ((writeDocument quiet ignored target first).on s).1 with
    | error error => exact ⟨_, _, _, t, rfl, rfl⟩
    | ok written => exact ⟨_, _, _, t, rfl, rfl⟩

/-- **Many documents are written at once as they are written one after another**: the
directory has the same entries behind both schedules, when the global usings are apart from
the documents. A document that cannot be loaded when it is its turn leaves the session as it
is, and leaving it out changes neither the session behind the batch nor the files that the
report lists.

The documents and the project are in the directory, as nothing outside is found
(`Directory.checkPath`), and a write that fails leaves the file as it was
(`Directory.write`). -/
theorem sameEntries_writeSingly (quiet : Bool) (ignored : List String) (target : Target)
    (documents : List DocumentPaths) (s : Session)
    (hapart : UsingsApart quiet ignored target documents s) :
    ((writeDocuments quiet ignored target documents).on s).2.directory.SameEntries
        ((writeSingly quiet ignored target documents).on s).2.directory
      ∧ ∀ before document after error, documents = before ++ document :: after →
        let turn := ((writeEach quiet ignored target before).on s).2
        ((loadDocument ignored document).on turn).1 = .error error →
          (writeDocument quiet ignored target document).on turn = (.error error, turn)
            ∧ ((writeDocuments quiet ignored target documents).on s).2
              = ((writeDocuments quiet ignored target (before ++ after)).on s).2
            ∧ ((writeDocuments quiet ignored target documents).on s).1.map
                (fun report => (report.files, report.usingsFile))
              = ((writeDocuments quiet ignored target (before ++ after)).on s).1.map
                (fun report => (report.files, report.usingsFile)) := by
  constructor
  · have hstart : (s.directory.withUsingsAfter target []).SameEntries s.directory := .refl _
    obtain ⟨files, failures, t, heach, hsame⟩ := exists_on_writeEach hstart hapart
    rw [on_writeDocuments heach, directory_on_usingsAfter]
    exact hsame
  · rintro before document after error rfl turn hload
    have hfailed := on_writeDocument_of_unloadable quiet target hload
    obtain ⟨files, failures, failures', t, hwith, hwithout⟩ :=
      exists_on_writeEach_append after hfailed
    refine ⟨hfailed, ?_, ?_⟩ <;> rw [on_writeDocuments hwith, on_writeDocuments hwithout]
    dsimp only
    generalize ((usingsAfter target files).on t).1 = outcome
    cases outcome <;> rfl

end

/-! ## A shop -/

/-- The symbols of a cart. -/
def cartSymbols : List DocumentSymbol :=
  [{ name := "Cart", detail := "Cart", kind := .classKind
     range := ⟨⟨0, 0⟩, ⟨0, 45⟩⟩, selectionRange := ⟨⟨0, 13⟩, ⟨0, 17⟩⟩
     children := [
      { name := "Clear", detail := "Clear()", kind := .methodKind
        range := ⟨⟨0, 20⟩, ⟨0, 43⟩⟩, selectionRange := ⟨⟨0, 32⟩, ⟨0, 37⟩⟩ }] }]

/-- A folder with a cart and a test project. -/
def shopSession : Session :=
  { directory := ⟨[
      (["Cart.cs"], .file (Text.encode
        "public class Cart \x7b public void Clear() \x7b \x7d \x7d")),
      (["Cart.json"], .file (Text.encode
        (Json.array (cartSymbols.map DocumentSymbol.toJson)).compact)),
      (["Tests"], .folder)]⟩ }

/-- The test project of the shop. -/
def shopTarget : Target :=
  { project := ⟨"Shop.Tests", "Tests/Shop.Tests.csproj", "Tests", "Shop.Tests", true⟩
    settings := { targetProjectNamespace := some "Shop.Tests" } }

/-- An order without a source text, and the cart. -/
def shopDocuments : List DocumentPaths :=
  [⟨"Order.cs", "Order.json"⟩, ⟨"Cart.cs", "Cart.json"⟩]

/-- The cart is written at once as it is written behind the order, which cannot be loaded and
might be left out. -/
theorem sameEntries_writeSingly_shop :
    UsingsApart false [] shopTarget shopDocuments shopSession
      ∧ ((writeDocuments false [] shopTarget shopDocuments).on shopSession).2.directory.SameEntries
        ((writeSingly false [] shopTarget shopDocuments).on shopSession).2.directory
      ∧ ((loadDocument [] ⟨"Order.cs", "Order.json"⟩).on shopSession).1
        = .error (.file .readSource "Order.cs" .notFound)
      ∧ ((writeDocuments false [] shopTarget shopDocuments).on shopSession).2
        = ((writeDocuments false [] shopTarget [⟨"Cart.cs", "Cart.json"⟩]).on shopSession).2 := by
  have hapart : UsingsApart false [] shopTarget shopDocuments shopSession :=
    .of_name (show Directory.steps shopTarget.usingsPath = ["Tests"] ++ ["Usings.cs"] by decide)
      (by decide) (by decide) (by decide) (by decide)
  have hload : ((loadDocument [] ⟨"Order.cs", "Order.json"⟩).on shopSession).1
      = .error (.file .readSource "Order.cs" .notFound) := rfl
  obtain ⟨hsame, hskip⟩ := sameEntries_writeSingly false [] shopTarget shopDocuments shopSession
    hapart
  obtain ⟨-, hsession, -⟩ := hskip [] _ [⟨"Cart.cs", "Cart.json"⟩] _ rfl hload
  exact ⟨hapart, hsame, hload, hsession⟩

end TestScaffold
