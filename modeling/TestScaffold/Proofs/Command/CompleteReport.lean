import TestScaffold.Proofs.Command.FreshFiles
/-!
# Complete reports

A report on many documents is *complete* (`WriteReport.Complete`) when it lists every test
class that was written, in order, and so every file that came or grew, and when it tells that
the project got global usings for them unless it had some.

A report leaves out what a document wrote that fails behind it, and then the project gets no
global usings for this either. So a report is complete exactly when no document breaks off
(`report_complete_iff`); `not_complete_brokenFolder` is a report that leaves a new file out.
-/

namespace TestScaffold

/-! ## Global usings -/

/-- **The global usings that are answered** are those that come as a new file. -/
theorem usingsFile_of_usingsAfter {target : Target} {files : List WrittenFile} {s t : Session}
    {usingsFile : Option String} (h : (usingsAfter target files).on s = (.ok usingsFile, t))
    (hfiles : files ≠ []) (hpath : s.directory.hasPath target.usingsPath = false) :
    usingsFile = some target.usingsPath
      ∧ ∃ location, s.directory.FileAt target.usingsPath location
        ∧ t.directory.lookup? location
          = some (.file (Text.encode target.settings.usingsFileContent)) := by
  unfold usingsAfter ensureUsingsFile at h
  rw [if_neg (by simpa using hfiles)] at h
  dsimp only at h
  rw [Task.on_bind_ok (Task.on_hasPath ..)] at h
  unfold Target.usingsPath at hpath ⊢
  rw [hpath] at h
  simp only [Bool.false_eq_true, if_false] at h
  cases hwrite : s.directory.write
      (joinPath target.project.directory target.settings.usingsFileName)
      target.settings.usingsFileContent with
  | error cause =>
    rw [Task.on_bind_error (by rw [Task.on_writeText, hwrite])] at h
    cases h
  | ok e =>
    rw [Task.on_bind_ok (by rw [Task.on_writeText, hwrite]), Task.on_pure] at h
    cases h
    obtain ⟨location, hat, hfolder, rfl⟩ := Directory.write_eq_ok_iff.mp hwrite
    refine ⟨rfl, location, hat, ?_⟩
    rw [Directory.lookup?_set _ _ _ (Directory.ne_nil_of_lookup? hfolder), if_pos rfl]

/-- Global usings come as a new file where there is room for one. -/
theorem exists_on_usingsAfter_created {target : Target} {files : List WrittenFile} {s : Session}
    {location : Location} (hfiles : files ≠ [])
    (hat : s.directory.FileAt target.usingsPath location)
    (hnone : s.directory.lookup? location = none) :
    ∃ t, (usingsAfter target files).on s = (.ok (some target.usingsPath), t) := by
  have hpath : s.directory.hasPath target.usingsPath = false := by rw [hat.hasPath_eq, hnone]; rfl
  have hwrite : s.directory.write target.usingsPath target.settings.usingsFileContent = .ok _ :=
    Directory.write_eq_ok_iff.mpr ⟨location, hat, by simp [hnone], rfl⟩
  unfold usingsAfter ensureUsingsFile
  unfold Target.usingsPath at hpath hwrite ⊢
  rw [if_neg (by simpa using hfiles)]
  dsimp only
  rw [Task.on_bind_ok (Task.on_hasPath ..), hpath]
  simp only [Bool.false_eq_true, if_false]
  rw [Task.on_bind_ok (by rw [Task.on_writeText, hwrite])]
  exact ⟨_, rfl⟩

/-! ## Reports -/

/-- **A report is complete**: `written` is what was written, from one directory to another
one, behind which the project may have got global usings. -/
structure WriteReport.Complete (report : WriteReport) (written : List WrittenFile)
    (before behind final : Directory) : Prop where
  /-- It lists what was written, in order. -/
  files_eq : report.files = written
  /-- A file that came or grew is listed. -/
  listed : ∀ location, behind.lookup? location ≠ before.lookup? location →
    ∃ file ∈ report.files, before.FileAt file.path location
  /-- When something was written and the project has no global usings, it gets them and the
  report tells so. -/
  usings : written ≠ [] → behind.hasPath report.target.usingsPath = false →
    report.usingsFile = some report.target.usingsPath
      ∧ ∃ location, behind.FileAt report.target.usingsPath location
        ∧ final.lookup? location
          = some (.file (Text.encode report.target.settings.usingsFileContent))

section

variable {quiet : Bool} {ignored : List String} {target : Target}
  {documents : List DocumentPaths} {s t : Session} {report : WriteReport}

/-- **The report on some documents is complete exactly when no document breaks off.** -/
theorem complete_writeDocuments_iff
    (h : (writeDocuments quiet ignored target documents).on s = (.ok report, t)) :
    report.target = target
      ∧ report.files.Sublist (writtenEach quiet ignored target documents s)
      ∧ t.directory = ((writeEach quiet ignored target documents).on s).2.directory.withUsingsAfter
        target report.files
      ∧ (report.Complete (writtenEach quiet ignored target documents s) s.directory
          ((writeEach quiet ignored target documents).on s).2.directory t.directory
        ↔ ∀ before document after, documents = before ++ document :: after →
          ¬BreaksOff quiet ignored target document
            ((writeEach quiet ignored target before).on s).2) := by
  obtain ⟨files, failures, u, heach⟩ :=
    exists_on_writeEach_eq_ok quiet ignored target documents s
  have hjournal := journal_writtenEach quiet ignored target documents s
  obtain ⟨hsublist, hiff⟩ := sublist_and_eq_writtenEach_iff heach
  have hfinal := directory_on_usingsAfter target files u
  rw [on_writeDocuments heach] at h
  rw [heach] at hjournal ⊢
  rw [← hiff]
  rcases husings : (usingsAfter target files).on u with ⟨error | usingsFile, v⟩ <;>
    rw [husings] at h hfinal
  · cases h
  · cases h
    refine ⟨rfl, hsublist, hfinal, fun hcomplete => hcomplete.files_eq, fun heq => ⟨heq, ?_, ?_⟩⟩
    · exact fun location hne => heq ▸ hjournal.exists_mem_of_ne hne
    · exact fun hwritten hpath => usingsFile_of_usingsAfter husings (heq ▸ hwritten) hpath

/-- **A manifest that is written into a project is reported on.** -/
theorem on_runWriteProject {user : UserFolders} {settings : Settings} {manifest : String}
    {options : TargetOptions} {projects : List Project} {project : Project}
    (hmanifest : (readManifest manifest).on s = (.ok documents, s))
    (hprojects : projectsIn? s.directory user options.workspace = some projects)
    (hproject : selectTestProject? projects options.testProject = some project) :
    (runWriteProject quiet user settings manifest options).on s
      = let work := (writeDocuments quiet settings.parse.methodNamesToIgnore
          ⟨project, settings.generate.forProject project⟩ documents).on s
        (work.1.map fun report => reportText report.toJson, work.2) := by
  unfold runWriteProject
  rw [Task.on_bind_ok hmanifest,
    Task.on_bind_ok (on_resolveTarget quiet settings.generate hprojects hproject), Task.on_bind]
  dsimp only
  generalize (writeDocuments quiet settings.parse.methodNamesToIgnore
    ⟨project, settings.generate.forProject project⟩ documents).on s = work
  obtain ⟨_ | report, t⟩ := work <;> rfl

/-- A manifest is written when it is read and its documents are. -/
theorem exists_report_of_runWriteProject {user : UserFolders} {settings : Settings}
    {manifest : String} {options : TargetOptions} {projects : List Project} {project : Project}
    {output : String} (hprojects : projectsIn? s.directory user options.workspace = some projects)
    (hproject : selectTestProject? projects options.testProject = some project)
    (h : (runWriteProject quiet user settings manifest options).on s = (.ok output, t)) :
    ∃ documents report, (readManifest manifest).on s = (.ok documents, s)
      ∧ (writeDocuments quiet settings.parse.methodNamesToIgnore
          ⟨project, settings.generate.forProject project⟩ documents).on s = (.ok report, t)
      ∧ output = reportText report.toJson := by
  obtain ⟨documents, hmanifest⟩ := exists_on_readManifest manifest s.directory
  have hmanifest := hmanifest s rfl
  cases documents with
  | error error =>
    rw [runWriteProject, Task.on_bind_error hmanifest] at h
    cases h
  | ok documents =>
    rw [on_runWriteProject hmanifest hprojects hproject] at h
    dsimp only at h
    rcases hreport : (writeDocuments quiet settings.parse.methodNamesToIgnore
      ⟨project, settings.generate.forProject project⟩ documents).on s with ⟨error | report, u⟩ <;>
      rw [hreport] at h
    · cases h
    · obtain ⟨houtput, hsession⟩ := Prod.mk.inj h
      exact ⟨documents, report, hmanifest, hsession ▸ hreport, (Except.ok.inj houtput).symm⟩

end

/-- **A report is complete exactly when no document breaks off.** When documents are written
into a test project and the program ends well, it prints a report, and the test classes that
were written are the journal of the directory in front of the global usings. The report lists
all of them, in order, with every file that came or grew, and the global usings that the
project got for them, exactly when no document fails behind a test class that it wrote. -/
theorem report_complete_iff {around : Surroundings} {arguments : List String} {d : Directory}
    {manifest : String} {options : TargetOptions} {quiet : Bool} {config : Option String}
    {settings : Settings} {projects : List Project} {project : Project}
    (harguments : Invocation.ofArguments arguments
      = .ok ⟨.writeProject manifest options, quiet, config⟩)
    (hsettings : Settings.load d (Settings.withEnvironmentFile d around.environment)
      around.user.settingsFile config = .ok settings)
    (hprojects : projectsIn? d around.user options.workspace = some projects)
    (hproject : selectTestProject? projects options.testProject = some project)
    (hexit : (runArguments around arguments d).ending.exitCode = 0) :
    let ignored := settings.parse.methodNamesToIgnore
    let target : Target := ⟨project, settings.generate.forProject project⟩
    let start : Session := { directory := d }
    let final := (runArguments around arguments d).session.directory
    ∃ (documents : List DocumentPaths) (report : WriteReport),
      ((readManifest manifest).on start).1 = .ok documents
        ∧ (runArguments around arguments d).output = reportText report.toJson
        ∧ report.target = target
        ∧ let written := writtenEach quiet ignored target documents start
          let behind := ((writeEach quiet ignored target documents).on start).2.directory
          Directory.Journal project.directory target.settings d written behind
            ∧ report.files.Sublist written
            ∧ final = behind.withUsingsAfter target report.files
            ∧ (∀ path, d.hasPath path = false →
              (∀ file ∈ written, ¬d.SameFile path file.path) → behind.hasPath path = false)
            ∧ (report.Complete written d behind final
              ↔ ∀ before document after, documents = before ++ document :: after →
                ¬BreaksOff quiet ignored target document
                  ((writeEach quiet ignored target before).on start).2) := by
  intro ignored target start final
  obtain ⟨output, session, hon, hrun⟩ :=
    exists_on_of_exitCode_eq_zero harguments hsettings hexit
  obtain ⟨documents, report, hmanifest, hreport, houtput⟩ :=
    exists_report_of_runWriteProject (s := start) hprojects hproject hon
  obtain ⟨htarget, hsublist, hfinal, hiff⟩ := complete_writeDocuments_iff hreport
  have hjournal := journal_writtenEach quiet ignored target documents start
  have hsession : final = session.directory :=
    congrArg (fun run : Run => run.session.directory) hrun
  rw [hsession]
  refine ⟨documents, report, by rw [hmanifest], by rw [hrun, Run.output, houtput], htarget,
    hjournal, hsublist, hfinal,
    fun path hpath hfiles => hjournal.hasPath_eq_false hpath hfiles, hiff⟩

/-! ## Two classes, and one that cannot be written -/

/-- The command line that writes the manifest of a plain folder. -/
def manifestArguments : List String :=
  ["write-project", "--manifest", "m.json", "--workspace", "."]

/-- The manifest of a plain folder lists its document. -/
theorem on_readManifest_plainFolder {tests : List (Location × Entry)} {names : List String}
    (hlookup : (plainFolder tests names).lookup? ["m.json"]
      = some (.file (Text.encode (Json.array [plainPaths.toJson]).compact))) :
    (readManifest "m.json").on { directory := plainFolder tests names }
      = (.ok [plainPaths], { directory := plainFolder tests names }) := by
  have hread : (plainFolder tests names).readText "m.json"
      = .ok (Json.array ([plainPaths].map DocumentPaths.toJson)).compact :=
    Directory.readText_eq_ok_iff.mpr
      ⟨["m.json"], _, ⟨rfl, by decide⟩, hlookup, Text.decode?_encode _⟩
  have hbelow : [plainPaths].map
      (DocumentPaths.below (String.ofList (Path.parent "m.json".toList))) = [plainPaths] := by
    decide +kernel
  rw [on_readManifest_of_text (s := { directory := plainFolder tests names }) hread, hbelow]

/-- What the program does with the manifest of a plain folder. -/
theorem runArguments_manifestArguments {tests : List (Location × Entry)} {names : List String}
    {report : WriteReport} {t : Session}
    (hsettings : Settings.load (plainFolder tests names)
      (Settings.withEnvironmentFile (plainFolder tests names) bareSurroundings.environment)
      bareSurroundings.user.settingsFile none = .ok {})
    (hlookup : (plainFolder tests names).lookup? ["m.json"]
      = some (.file (Text.encode (Json.array [plainPaths.toJson]).compact)))
    (hprojects : projectsIn? (plainFolder tests names) bareSurroundings.user "."
      = some [plainProject])
    (hreport : (writeDocuments false [] plainTarget [plainPaths]).on
      { directory := plainFolder tests names } = (.ok report, t)) :
    runArguments bareSurroundings manifestArguments (plainFolder tests names)
      = ⟨.done (reportText report.toJson), t⟩ := by
  have hrun := @on_runWriteProject false [plainPaths] { directory := plainFolder tests names }
    bareSurroundings.user {} "m.json" ⟨".", none⟩ [plainProject] plainProject
    (on_readManifest_plainFolder hlookup) hprojects rfl
  have hwritten : (writeDocuments false ({} : Settings).parse.methodNamesToIgnore
      ⟨plainProject, ({} : Settings).generate.forProject plainProject⟩ [plainPaths]).on
      { directory := plainFolder tests names } = (.ok report, t) := hreport
  rw [hwritten] at hrun
  have harguments : Invocation.ofArguments manifestArguments
      = .ok ⟨.writeProject "m.json" ⟨".", none⟩, false, none⟩ := rfl
  rw [runArguments_eq harguments hsettings, Command.run, hrun]
  rfl

/-- What is written in the folder with the classes `A` and `B`. -/
def pairFiles : List WrittenFile :=
  [⟨"./T/ATests.cs", "ATests", .created⟩, ⟨"./T/BTests.cs", "BTests", .created⟩]

/-- The document in this folder is written, and nothing else changes. -/
theorem exists_on_writeDocument_pairFolder :
    ∃ t, (writeDocument false [] plainTarget plainPaths).on { directory := pairFolder }
        = (.ok pairFiles, t)
      ∧ writtenOf false [] plainTarget plainPaths { directory := pairFolder } = pairFiles
      ∧ pairFolder.GrowsInto t.directory
      ∧ t.directory.lookup? ["T", "Usings.cs"] = none := by
  have hload : pairFolder.testClasses [] plainPaths
      = .ok (["A", "B"].map Suite.TestClass.plain) :=
    Directory.testClasses_eq_ok_iff.mpr
      ⟨_, Directory.document_plainPaths isPlainName_pair (by decide) rfl rfl,
        Suite.testClasses_plain _⟩
  have hfolder : pairFolder.hasFolder plainProject.directory = true := by decide +kernel
  obtain ⟨t, hon, -⟩ := @on_writeDocument_created false [] plainPaths _ { directory := pairFolder }
    plainProject plainTarget.settings hload hfolder newIn_pairFolder takes_pairFolder
  have hfiles : (["A", "B"].map Suite.TestClass.plain).map
      (Suite.TestClass.newFile plainProject.directory) = pairFiles := by
    decide +kernel
  rw [hfiles] at hon
  have hdocument : (writeDocument false [] plainTarget plainPaths).on { directory := pairFolder }
      = (.ok pairFiles, t) := hon
  obtain ⟨hjournal, hwritten⟩ :=
    journal_writtenOf false [] plainTarget plainPaths { directory := pairFolder }
  have hwritten := hwritten pairFiles (congrArg Prod.fst hdocument)
  rw [← hwritten, hdocument] at hjournal
  have hfirst : pairFolder.FileAt "./T/ATests.cs" ["T", "ATests.cs"] :=
    ⟨eq_ok_of_toOption (by decide +kernel), by decide +kernel⟩
  have hsecond : pairFolder.FileAt "./T/BTests.cs" ["T", "BTests.cs"] :=
    ⟨eq_ok_of_toOption (by decide +kernel), by decide +kernel⟩
  have hnone : pairFolder.lookup? ["T", "Usings.cs"] = none := by decide +kernel
  refine ⟨t, hdocument, hwritten.symm, hjournal.growsInto, ?_⟩
  by_contra hne
  obtain ⟨file, hmem, hat⟩ := hjournal.exists_mem_of_ne (hnone.symm ▸ hne)
  rcases List.mem_pair.mp hmem with rfl | rfl
  · exact absurd (hfirst.unique hat) (by decide)
  · exact absurd (hsecond.unique hat) (by decide)

/-- The test classes of a folder with the classes `A` and `B` are reported in full: no document
breaks off. -/
theorem report_complete_iff_pairFolder :
    (runArguments bareSurroundings manifestArguments pairFolder).ending.exitCode = 0
      ∧ ∃ report : WriteReport,
        (runArguments bareSurroundings manifestArguments pairFolder).output
            = reportText report.toJson
          ∧ ∃ behind, report.Complete
            [⟨"./T/ATests.cs", "ATests", .created⟩, ⟨"./T/BTests.cs", "BTests", .created⟩]
            pairFolder behind
            (runArguments bareSurroundings manifestArguments pairFolder).session.directory := by
  obtain ⟨t, hdocument, hwritten, hgrows, hroom⟩ := exists_on_writeDocument_pairFolder
  have heach : (writeEach false [] plainTarget [plainPaths]).on { directory := pairFolder }
      = (.ok (pairFiles, []), t) := by
    rw [on_writeEach_cons, hdocument]
    rfl
  have hfile : pairFolder.FileAt plainTarget.usingsPath ["T", "Usings.cs"] :=
    ⟨eq_ok_of_toOption (by decide +kernel), by decide +kernel⟩
  have hsome : pairFiles ≠ [] := List.cons_ne_nil _ _
  obtain ⟨u, husings⟩ :=
    exists_on_usingsAfter_created hsome (hgrows.folders.fileAt_iff.mpr hfile) hroom
  have hreport : (writeDocuments false [] plainTarget [plainPaths]).on { directory := pairFolder }
      = (.ok ⟨plainTarget, pairFiles, some plainTarget.usingsPath, []⟩, u) := by
    rw [on_writeDocuments heach, husings]
    rfl
  have hprojects : projectsIn? pairFolder bareSurroundings.user "." = some [plainProject] :=
    projectsIn?_singleton rfl rfl (by decide +kernel)
  have hrun : runArguments bareSurroundings manifestArguments pairFolder = _ :=
    runArguments_manifestArguments rfl rfl hprojects hreport
  have hexit :
      (runArguments bareSurroundings manifestArguments pairFolder).ending.exitCode = 0 := by
    rw [hrun]
    rfl
  obtain ⟨documents, report, hread, houtput, -, -, -, -, -, hiff⟩ :=
    @report_complete_iff bareSurroundings manifestArguments pairFolder "m.json" ⟨".", none⟩ false
      none {} [plainProject] plainProject rfl rfl hprojects rfl hexit
  have hmanifest : (readManifest "m.json").on { directory := pairFolder }
      = (.ok [plainPaths], { directory := pairFolder }) := on_readManifest_plainFolder rfl
  rw [hmanifest] at hread
  obtain rfl := Except.ok.inj hread
  have heq : writtenEach false [] plainTarget [plainPaths] { directory := pairFolder }
      = pairFiles := by
    rw [writtenEach, writtenEach, List.append_nil, hwritten]
  have hcomplete : report.Complete
      (writtenEach false [] plainTarget [plainPaths] { directory := pairFolder }) pairFolder _ _ :=
    hiff.mpr ((sublist_and_eq_writtenEach_iff heach).2.mp heq.symm)
  rw [heq] at hcomplete
  exact ⟨hexit, report, houtput, _, hcomplete⟩

/-- A folder with the classes `A` and `B` where the file for the tests of `B` holds no text. -/
def brokenFolder : Directory :=
  plainFolder [(["T", "BTests.cs"], .file [0xff])] ["A", "B"]

/-- The broken folder with the test class `ATests`. -/
def brokenFolderBehind : Directory :=
  brokenFolder.set ["T", "ATests.cs"]
    (.file (Text.encode ((Suite.TestClass.plain "A").full plainTarget.settings)))

/-- The test class `ATests` is written into the broken folder, and then the document fails. -/
theorem on_writeDocument_brokenFolder :
    ∃ error notices, (writeDocument false [] plainTarget plainPaths).on
      { directory := brokenFolder } = (.error error, ⟨brokenFolderBehind, notices⟩) := by
  have hload : brokenFolder.testClasses [] plainPaths
      = .ok [Suite.TestClass.plain "A", .plain "B"] :=
    Directory.testClasses_eq_ok_iff.mpr
      ⟨_, Directory.document_plainPaths isPlainName_pair (by decide) rfl rfl,
        Suite.testClasses_plain _⟩
  have hfirst : brokenFolder.FileAt
      (joinPath plainTarget.project.directory (Suite.TestClass.plain "A").fileName)
      ["T", "ATests.cs"] := ⟨eq_ok_of_toOption (by decide +kernel), by decide +kernel⟩
  have hsecond : brokenFolder.FileAt
      (joinPath plainTarget.project.directory (Suite.TestClass.plain "B").fileName)
      ["T", "BTests.cs"] := ⟨eq_ok_of_toOption (by decide +kernel), by decide +kernel⟩
  have hnone : brokenFolder.lookup? ["T", "ATests.cs"] = none := by decide +kernel
  have hfolders : brokenFolder.SameFolders brokenFolderBehind :=
    (Directory.growsInto_set_of_none hnone _).folders
  have hbroken : brokenFolderBehind.lookup? ["T", "BTests.cs"] = some (.file [0xff]) := by
    rw [brokenFolderBehind, Directory.lookup?_set _ _ _ (List.cons_ne_nil _ _),
      if_neg (by decide)]
    decide +kernel
  obtain ⟨notices, hnotice⟩ := exists_on_loadTestClasses false [] plainPaths
    { directory := brokenFolder }
  rw [hload] at hnotice
  have hcreated : (writeTestClass plainTarget.project.directory plainTarget.settings
      (.plain "A")).on { directory := brokenFolder, notices }
      = (.ok _, ⟨brokenFolderBehind, notices⟩) := on_writeTestClass_created hfirst hnone
  have hfailed : ∃ error, (writeTestClass plainTarget.project.directory plainTarget.settings
      (.plain "B")).on ⟨brokenFolderBehind, notices⟩
      = (.error error, ⟨brokenFolderBehind, notices⟩) :=
    exists_on_writeTestClass_failed fun location hat => by
      obtain rfl := hsecond.unique (hfolders.fileAt_iff.mp hat)
      exact .inr ⟨_, hbroken, by decide +kernel⟩
  obtain ⟨error, herror⟩ := hfailed
  refine ⟨error, notices, ?_⟩
  rw [writeDocument, Task.on_bind_ok hnotice, writeTestClasses, Task.on_bind_ok hcreated,
    writeTestClasses]
  exact Task.on_bind_error (Task.on_bind_error herror _) _

/-- **A report leaves out a test class that was written**: `ATests` is in a new file, but the
document fails behind it. The report lists no file at all, and the project gets no global
usings. -/
theorem not_complete_brokenFolder :
    let run := runArguments bareSurroundings manifestArguments brokenFolder
    run.ending.exitCode = 0
      ∧ projectsIn? brokenFolder bareSurroundings.user "." = some [plainProject]
      ∧ selectTestProject? [plainProject] none = some plainProject
      ∧ brokenFolder.hasPath "./T/ATests.cs" = false
      ∧ brokenFolder.hasPath "./T/Usings.cs" = false
      ∧ run.session.directory.readText "./T/ATests.cs"
        = .ok ((Suite.TestClass.plain "A").full plainTarget.settings)
      ∧ run.session.directory.hasPath "./T/Usings.cs" = false
      ∧ ∃ report : WriteReport, run.output = reportText report.toJson
        ∧ report.files = [] ∧ report.usingsFile = none := by
  obtain ⟨error, notices, hdocument⟩ := on_writeDocument_brokenFolder
  have hprojects : projectsIn? brokenFolder bareSurroundings.user "." = some [plainProject] :=
    projectsIn?_singleton rfl rfl (by decide +kernel)
  have heach : (writeEach false [] plainTarget [plainPaths]).on { directory := brokenFolder }
      = (.ok ([], [⟨"d.cs", error⟩]), ⟨brokenFolderBehind, notices⟩) := by
    rw [on_writeEach_cons, hdocument]
    rfl
  have hreport : (writeDocuments false [] plainTarget [plainPaths]).on
      { directory := brokenFolder }
      = (.ok ⟨plainTarget, [], none, [⟨"d.cs", error⟩]⟩, ⟨brokenFolderBehind, notices⟩) := by
    rw [on_writeDocuments heach]
    rfl
  have hrun : runArguments bareSurroundings manifestArguments brokenFolder = _ :=
    runArguments_manifestArguments rfl rfl hprojects hreport
  dsimp only
  rw [hrun]
  have hat : brokenFolderBehind.FileAt "./T/ATests.cs" ["T", "ATests.cs"] :=
    ⟨eq_ok_of_toOption (by decide +kernel), by decide +kernel⟩
  have hfile : brokenFolderBehind.lookup? ["T", "ATests.cs"] = some (.file (Text.encode
      ((Suite.TestClass.plain "A").full plainTarget.settings))) := by
    rw [brokenFolderBehind, Directory.lookup?_set _ _ _ (List.cons_ne_nil _ _), if_pos rfl]
  have husings : brokenFolderBehind.hasPath "./T/Usings.cs" = false := by decide +kernel
  exact ⟨rfl, hprojects, rfl, by decide +kernel, by decide +kernel,
    Directory.readText_eq_ok_iff.mpr ⟨_, _, hat, hfile, Text.decode?_encode _⟩,
    husings, _, rfl, rfl, rfl⟩

end TestScaffold
