import TestScaffold.Command.Write
import TestScaffold.Proofs.Command.Session
import TestScaffold.Proofs.Suite.Collection
/-!
# What writing comes to

Loading a document depends on the directory alone and leaves it as it is
(`exists_on_loadTestClasses`). Writing a test class makes a new file, or puts the class
behind the text of a file that is there, or fails and changes nothing; which of the three
it is follows from what is at the location of the file (`writes_cases`). Giving a project
its global usings is `Directory.withFile`.

From this, one function after another is shown to let the directory grow
(`keeps_writeDocuments`), whatever fails on the way.
-/

namespace TestScaffold

/-! ## Loading -/

namespace Directory

/-- What is read for a document in a directory. -/
def document (d : Directory) (ignored : List String) (document : DocumentPaths) :
    Except CommandError Intake := do
  let source ← (d.readText document.source).mapError (.file .readSource document.source)
  let symbols ← (d.readText document.symbols).mapError (.file .readSymbols document.symbols)
  match DocumentSymbol.listOfJsonText? symbols with
  | some symbols => return intake source symbols ignored
  | none => throw (.invalidSymbols document.symbols (DocumentSymbol.listComplaint symbols))

/-- The test classes of a document in a directory. -/
def testClasses (d : Directory) (ignored : List String) (paths : DocumentPaths) :
    Except CommandError (List Suite.TestClass) :=
  (d.document ignored paths).map fun parsed => Suite.testClasses parsed.classes

end Directory

/-- Loading a document reads the directory and does nothing else. -/
theorem on_loadDocument (ignored : List String) (paths : DocumentPaths) (s : Session) :
    (loadDocument ignored paths).on s = (s.directory.document ignored paths, s) := by
  unfold loadDocument Directory.document
  cases hsource : s.directory.readText paths.source with
  | error cause =>
    rw [Task.on_bind_error (by rw [Task.on_readText, hsource]; rfl)]
    rfl
  | ok source =>
    rw [Task.on_bind_ok (by rw [Task.on_readText, hsource]; rfl)]
    cases hsymbols : s.directory.readText paths.symbols with
    | error cause =>
      rw [Task.on_bind_error (by rw [Task.on_readText, hsymbols]; rfl)]
      rfl
    | ok symbols =>
      rw [Task.on_bind_ok (by rw [Task.on_readText, hsymbols]; rfl)]
      simp only [Except.mapError, bind, Except.bind]
      cases DocumentSymbol.listOfJsonText? symbols <;> rfl

/-- There is a reason why there are no test classes only when there are none. -/
theorem Suite.testClasses_eq_nil {classes : List Class} {reason : NoTestClass}
    (h : missingReason? classes (testClasses classes) = some reason) :
    testClasses classes = [] := by
  refine not_not.mp fun hne => ?_
  rw [missingReason?_eq_none_iff.mpr hne] at h
  cases h

/-- **Loading the test classes of a document** reads the directory and may give a
notice. -/
theorem exists_on_loadTestClasses (quiet : Bool) (ignored : List String) (paths : DocumentPaths)
    (s : Session) :
    ∃ notices, (loadTestClasses quiet ignored paths).on s
      = (s.directory.testClasses ignored paths, { s with notices }) := by
  unfold loadTestClasses Directory.testClasses
  have hload := on_loadDocument ignored paths s
  cases hdocument : s.directory.document ignored paths with
  | error error =>
    rw [hdocument] at hload
    exact ⟨s.notices, Task.on_bind_error hload _⟩
  | ok parsed =>
    rw [hdocument] at hload
    rw [Task.on_bind_ok hload]
    dsimp only
    split
    · rename_i reason hreason
      obtain ⟨notices, hnotice⟩ := Task.exists_on_notice quiet
        (paths.source ++ ": " ++ reason.message) s
      refine ⟨notices, ?_⟩
      rw [Task.on_bind_ok hnotice]
      simp [Except.map, Suite.testClasses_eq_nil hreason]
    · exact ⟨s.notices, rfl⟩

/-- A document that cannot be loaded leaves the session as it is. -/
theorem on_loadTestClasses_error {quiet : Bool} {ignored : List String} {paths : DocumentPaths}
    {s : Session} {error : CommandError}
    (h : s.directory.testClasses ignored paths = .error error) :
    (loadTestClasses quiet ignored paths).on s = (.error error, s) := by
  have hload := on_loadDocument ignored paths s
  unfold Directory.testClasses at h
  cases hdocument : s.directory.document ignored paths with
  | error cause =>
    rw [hdocument] at h hload
    cases h
    exact Task.on_bind_error hload _
  | ok parsed =>
    rw [hdocument] at h
    cases h

theorem keeps_loadTestClasses (quiet : Bool) (ignored : List String) (paths : DocumentPaths) :
    (loadTestClasses quiet ignored paths).Keeps Eq := by
  intro s
  obtain ⟨notices, h⟩ := exists_on_loadTestClasses quiet ignored paths s
  rw [h]

/-! ## Test classes -/

/-- **No test class can be written at a location**: there is a folder, or a file that holds
no text. -/
def Directory.Unwritable (d : Directory) (location : Location) : Prop :=
  d.lookup? location = some .folder
    ∨ ∃ bytes, d.lookup? location = some (.file bytes) ∧ Text.decode? bytes = none

/-- **A path is that of a new file, that of a text, or none to write at.** -/
theorem Directory.writes_cases (d : Directory) (path : String) :
    (∃ location, d.FileAt path location ∧ d.lookup? location = none)
    ∨ (∃ location bytes old, d.FileAt path location ∧ d.lookup? location = some (.file bytes)
      ∧ Text.decode? bytes = some old)
    ∨ ∀ location, d.FileAt path location → d.Unwritable location := by
  rcases d.fileAt_or_forall_not path with ⟨location, hat⟩ | hnot
  · cases hentry : d.lookup? location with
    | none => exact .inl ⟨location, hat, hentry⟩
    | some entry =>
      refine .inr ?_
      cases entry with
      | folder => exact .inr fun other hother => hat.unique hother ▸ .inl hentry
      | file bytes =>
        cases hdecode : Text.decode? bytes with
        | some old => exact .inl ⟨location, bytes, old, hat, hentry, hdecode⟩
        | none => exact .inr fun other hother => hat.unique hother ▸ .inr ⟨bytes, hentry, hdecode⟩
  · exact .inr (.inr fun location hat => absurd hat (hnot location))

section

variable {folder : String} {settings : GenerateSettings} {t : Suite.TestClass} {s : Session}
  {location : Location}

/-- A test class without a file gets one of its own. -/
theorem on_writeTestClass_created
    (hat : s.directory.FileAt (joinPath folder t.fileName) location)
    (hnone : s.directory.lookup? location = none) :
    (writeTestClass folder settings t).on s
      = (.ok ⟨joinPath folder t.fileName, t.name, .created⟩,
        { s with directory :=
          s.directory.set location (.file (Text.encode (t.full settings))) }) := by
  have hpath : s.directory.hasPath (joinPath folder t.fileName) = false := by
    rw [hat.hasPath_eq, hnone]
    rfl
  have hwrite := Directory.write_eq_ok_iff.mpr
    ⟨location, hat, by simp [hnone], (rfl : _ = s.directory.set location
      (.file (Text.encode (t.full settings))))⟩
  unfold writeTestClass
  dsimp only
  rw [Task.on_bind_ok (Task.on_hasPath ..), hpath]
  simp only [Bool.false_eq_true, if_false]
  rw [Task.on_bind_ok (by rw [Task.on_writeText, hwrite])]
  rfl

/-- A test class whose file is there is put behind its text, under a longer name. -/
theorem on_writeTestClass_appended {bytes : List UInt8} {old : String}
    (hat : s.directory.FileAt (joinPath folder t.fileName) location)
    (hfile : s.directory.lookup? location = some (.file bytes))
    (hdecode : Text.decode? bytes = some old) :
    (writeTestClass folder settings t).on s
      = (.ok ⟨joinPath folder t.fileName,
          (t.withPrefix settings.testClassNamePrefixIfFileExists).name, .appended⟩,
        { s with directory := s.directory.set location (.file (bytes ++ Text.encode ("\n\n"
          ++ (t.withPrefix settings.testClassNamePrefixIfFileExists).bare settings))) }) := by
  have hpath : s.directory.hasPath (joinPath folder t.fileName) = true := by
    rw [hat.hasPath_eq, hfile]
    rfl
  have hread := Directory.readText_eq_ok_iff.mpr ⟨location, bytes, hat, hfile, hdecode⟩
  have hbytes : Text.encode (old ++ "\n\n"
        ++ (t.withPrefix settings.testClassNamePrefixIfFileExists).bare settings)
      = bytes ++ Text.encode
        ("\n\n" ++ (t.withPrefix settings.testClassNamePrefixIfFileExists).bare settings) := by
    rw [String.append_assoc, Text.encode_append, Text.encode_of_decode? hdecode]
  have hwrite := Directory.write_eq_ok_iff.mpr
    ⟨location, hat, by simp [hfile], (rfl : _ = s.directory.set location
      (.file (Text.encode (old ++ "\n\n"
        ++ (t.withPrefix settings.testClassNamePrefixIfFileExists).bare settings))))⟩
  unfold writeTestClass
  dsimp only
  rw [Task.on_bind_ok (Task.on_hasPath ..), hpath]
  simp only [if_true]
  rw [Task.on_bind_ok (by rw [Task.on_readText, hread]; rfl),
    Task.on_bind_ok (by rw [Task.on_writeText, hwrite]), hbytes]
  rfl

/-- Where no test class can be written, nothing is. -/
theorem exists_on_writeTestClass_failed
    (h : ∀ location, s.directory.FileAt (joinPath folder t.fileName) location →
      s.directory.Unwritable location) :
    ∃ error, (writeTestClass folder settings t).on s = (.error error, s) := by
  unfold writeTestClass
  dsimp only
  rw [Task.on_bind_ok (Task.on_hasPath ..)]
  cases hpath : s.directory.hasPath (joinPath folder t.fileName) with
  | true =>
    simp only [if_true]
    cases hread : s.directory.readText (joinPath folder t.fileName) with
    | error cause =>
      exact ⟨_, Task.on_bind_error (by rw [Task.on_readText, hread]; rfl) _⟩
    | ok old =>
      -- what can be read is neither a folder nor without a text
      obtain ⟨location, bytes, hat, hfile, hdecode⟩ := Directory.readText_eq_ok_iff.mp hread
      rcases h location hat with hfolder | ⟨other, hother, hnone⟩
      · cases hfile.symm.trans hfolder
      · cases hfile.symm.trans hother
        cases hdecode.symm.trans hnone
  | false =>
    simp only [Bool.false_eq_true, if_false]
    cases hwrite : s.directory.write (joinPath folder t.fileName) (t.full settings) with
    | error cause =>
      exact ⟨_, Task.on_bind_error (by rw [Task.on_writeText, hwrite]) _⟩
    | ok e =>
      -- a path that means nothing has no entry, neither a folder nor a file
      obtain ⟨location, hat, -⟩ := Directory.write_eq_ok_iff.mp hwrite
      rw [hat.hasPath_eq] at hpath
      rcases h location hat with hfolder | ⟨other, hother, -⟩
      · simp [hfolder] at hpath
      · simp [hother] at hpath

/-- **A test class is written without loss**: the directory grows, or stays as it is. -/
theorem keeps_writeTestClass (folder : String) (settings : GenerateSettings)
    (t : Suite.TestClass) : (writeTestClass folder settings t).Keeps Directory.GrowsInto := by
  intro s
  rcases s.directory.writes_cases (joinPath folder t.fileName) with
    ⟨location, hat, hnone⟩ | ⟨location, bytes, old, hat, hfile, hdecode⟩ | h
  · rw [on_writeTestClass_created hat hnone]
    exact Directory.growsInto_set_of_none hnone _
  · rw [on_writeTestClass_appended hat hfile hdecode]
    exact Directory.growsInto_set_append hfile _
  · obtain ⟨error, herror⟩ : ∃ error, (writeTestClass folder settings t).on s = (.error error, s) :=
      exists_on_writeTestClass_failed h
    rw [herror]
    exact .refl _

end

theorem keeps_writeTestClasses (folder : String) (settings : GenerateSettings) :
    ∀ tests : List Suite.TestClass,
      (writeTestClasses folder settings tests).Keeps Directory.GrowsInto
  | [] => fun s => .refl s.directory
  | t :: tests =>
    (keeps_writeTestClass folder settings t).bind .trans fun _ =>
      (keeps_writeTestClasses folder settings tests).bind .trans fun _ s => .refl s.directory

/-! ## Global usings -/

/-- **Global usings come as a new file**, unless there is one. -/
theorem directory_on_ensureUsingsFile (folder : String) (settings : GenerateSettings)
    (s : Session) :
    ((ensureUsingsFile folder settings).on s).2.directory
      = s.directory.withFile (joinPath folder settings.usingsFileName)
        settings.usingsFileContent := by
  unfold ensureUsingsFile Directory.withFile
  dsimp only
  rw [Task.on_bind_ok (Task.on_hasPath ..)]
  split
  · rfl
  cases hwrite : s.directory.write (joinPath folder settings.usingsFileName)
      settings.usingsFileContent with
  | error cause => rw [Task.on_bind_error (by rw [Task.on_writeText, hwrite])]
  | ok e => rw [Task.on_bind_ok (by rw [Task.on_writeText, hwrite])]; rfl

/-- The path of the global usings of a project. -/
def Target.usingsPath (target : Target) : String :=
  joinPath target.project.directory target.settings.usingsFileName

/-- The directory of a project that gets its global usings behind the files that were
written, if there are any. -/
def Directory.withUsingsAfter (d : Directory) (target : Target) (files : List WrittenFile) :
    Directory :=
  if files.isEmpty then d else d.withFile target.usingsPath target.settings.usingsFileContent

@[simp] theorem Directory.withUsingsAfter_nil (d : Directory) (target : Target) :
    d.withUsingsAfter target [] = d :=
  rfl

@[simp] theorem Directory.withUsingsAfter_cons (d : Directory) (target : Target)
    (file : WrittenFile) (files : List WrittenFile) :
    d.withUsingsAfter target (file :: files)
      = d.withFile target.usingsPath target.settings.usingsFileContent :=
  if_neg Bool.false_ne_true

/-- A project gets its global usings behind a file that was written. -/
theorem directory_on_usingsAfter (target : Target) (files : List WrittenFile) (s : Session) :
    ((usingsAfter target files).on s).2.directory
      = s.directory.withUsingsAfter target files := by
  unfold usingsAfter Directory.withUsingsAfter
  split
  · rfl
  · exact directory_on_ensureUsingsFile ..

theorem Directory.growsInto_withUsingsAfter (d : Directory) (target : Target)
    (files : List WrittenFile) : d.GrowsInto (d.withUsingsAfter target files) := by
  unfold Directory.withUsingsAfter
  split
  · exact .refl d
  · exact Directory.growsInto_withFile ..

theorem keeps_usingsAfter (target : Target) (files : List WrittenFile) :
    (usingsAfter target files).Keeps Directory.GrowsInto := by
  intro s
  rw [directory_on_usingsAfter]
  exact s.directory.growsInto_withUsingsAfter target files

/-! ## Documents -/

section

variable {quiet : Bool} {ignored : List String} {target : Target} {document : DocumentPaths}
  {documents : List DocumentPaths} {s : Session}

/-- A document and those behind it, whatever becomes of it. -/
theorem on_writeEach_cons :
    (writeEach quiet ignored target (document :: documents)).on s
      = let outcome := (writeDocument quiet ignored target document).on s
        let rest := (writeEach quiet ignored target documents).on outcome.2
        (rest.1.map fun (files, failures) =>
          match outcome.1 with
          | .ok written => (written ++ files, failures)
          | .error error => (files, ⟨document.source, error⟩ :: failures),
        rest.2) := by
  rw [writeEach, Task.on_bind_ok (Task.on_attempt ..), Task.on_bind]
  dsimp only
  generalize (writeEach quiet ignored target documents).on _ = rest
  generalize ((writeDocument quiet ignored target document).on s).1 = outcome
  obtain ⟨_ | ⟨files, failures⟩, t⟩ := rest
  · rfl
  · cases outcome <;> rfl

/-- The global usings come behind all documents, and then the report. -/
theorem on_writeDocuments {files : List WrittenFile} {failures : List DocumentFailure}
    {t : Session}
    (h : (writeEach quiet ignored target documents).on s = (.ok (files, failures), t)) :
    (writeDocuments quiet ignored target documents).on s
      = (((usingsAfter target files).on t).1.map fun usingsFile =>
          { target, files, usingsFile, failures },
        ((usingsAfter target files).on t).2) := by
  rw [writeDocuments, Task.on_bind_ok h, Task.on_bind]
  generalize (usingsAfter target files).on t = outcome
  obtain ⟨_ | usingsFile, u⟩ := outcome <;> rfl

end

theorem keeps_writeDocument (quiet : Bool) (ignored : List String) (target : Target)
    (paths : DocumentPaths) :
    (writeDocument quiet ignored target paths).Keeps Directory.GrowsInto :=
  ((keeps_loadTestClasses quiet ignored paths).of_eq .refl).bind .trans fun tests =>
    keeps_writeTestClasses target.project.directory target.settings tests

theorem keeps_writeEach (quiet : Bool) (ignored : List String) (target : Target) :
    ∀ documents : List DocumentPaths,
      (writeEach quiet ignored target documents).Keeps Directory.GrowsInto
  | [] => fun s => .refl s.directory
  | paths :: documents => by
    have hattempt : (Task.attempt (writeDocument quiet ignored target paths)).Keeps
        Directory.GrowsInto := keeps_writeDocument quiet ignored target paths
    refine hattempt.bind .trans fun result => ?_
    refine (keeps_writeEach quiet ignored target documents).bind .trans fun _ s => ?_
    cases result <;> exact .refl s.directory

/-- **Documents are written without loss**, whatever fails on the way. -/
theorem keeps_writeDocuments (quiet : Bool) (ignored : List String) (target : Target)
    (documents : List DocumentPaths) :
    (writeDocuments quiet ignored target documents).Keeps Directory.GrowsInto :=
  (keeps_writeEach quiet ignored target documents).bind .trans fun _ =>
    (keeps_usingsAfter target _).bind .trans fun _ s => .refl s.directory

end TestScaffold
