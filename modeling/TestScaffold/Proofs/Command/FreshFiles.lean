import TestScaffold.Proofs.Command.Journal
import TestScaffold.Proofs.Command.Preservation
import TestScaffold.Proofs.Workspace.Folder
/-!
# Test classes in files of their own

When no test class of a document has a file yet, each one gets a file of its own, in the order
of the classes (`on_writeTestClasses_created`), as long as the file system takes the names of
the files; and it has to (`forall_takes_of_ok`). These files hold what is printed for the
document, one behind the other (`written_eq_printed`): the namespaces that a project fills in
are the same for both.
-/

namespace TestScaffold

/-! ## New files -/

/-- What is reported for a test class in a file of its own. -/
def Suite.TestClass.newFile (folder : String) (t : Suite.TestClass) : WrittenFile :=
  ⟨joinPath folder t.fileName, t.name, .created⟩

/-- **Test classes are new in a folder**: their files have different names, each one a single
step, and none of them is there. -/
structure NewIn (d : Directory) (folder : String) (tests : List Suite.TestClass) : Prop where
  /-- The files have different names. -/
  nodup : (tests.map Suite.TestClass.fileName).Nodup
  /-- Each name is a step. -/
  isStep : ∀ t ∈ tests, Directory.IsStep t.fileName
  /-- No file is there. -/
  hasPath_eq_false : ∀ t ∈ tests, d.hasPath (joinPath folder t.fileName) = false

section

variable {d e : Directory} {folder : String} {settings : GenerateSettings} {base : Location}
  {t : Suite.TestClass} {tests : List Suite.TestClass}

/-- New test classes are new one by one. -/
theorem newIn_cons_iff :
    NewIn d folder (t :: tests) ↔ (t.fileName ∉ tests.map Suite.TestClass.fileName
      ∧ Directory.IsStep t.fileName ∧ d.hasPath (joinPath folder t.fileName) = false)
      ∧ NewIn d folder tests := by
  constructor
  · rintro ⟨hnodup, hstep, hpath⟩
    rw [List.map_cons, List.nodup_cons] at hnodup
    obtain ⟨hstep, hsteps⟩ := List.forall_mem_cons.mp hstep
    obtain ⟨hpath, hpaths⟩ := List.forall_mem_cons.mp hpath
    exact ⟨⟨hnodup.1, hstep, hpath⟩, hnodup.2, hsteps, hpaths⟩
  · rintro ⟨⟨hnew, hstep, hpath⟩, hnodup, hsteps, hpaths⟩
    exact ⟨List.nodup_cons.mpr ⟨hnew, hnodup⟩, List.forall_mem_cons.mpr ⟨hstep, hsteps⟩,
      List.forall_mem_cons.mpr ⟨hpath, hpaths⟩⟩

/-- **New test classes get files of their own**, in order, and nothing else changes. -/
theorem on_writeTestClasses_created {s : Session}
    (hlocate : s.directory.locate folder = .ok base)
    (hbase : s.directory.lookup? base = some .folder) (hnew : NewIn s.directory folder tests)
    (htakes : ∀ t ∈ tests, Directory.Takes folder t.fileName) :
    ∃ d, (writeTestClasses folder settings tests).on s
        = (.ok (tests.map (Suite.TestClass.newFile folder)), { s with directory := d })
      ∧ (∀ t ∈ tests, d.lookup? (base ++ [t.fileName])
        = some (.file (Text.encode (t.full settings))))
      ∧ ∀ location, (∀ t ∈ tests, location ≠ base ++ [t.fileName]) →
        d.lookup? location = s.directory.lookup? location := by
  induction tests generalizing s with
  | nil => exact ⟨s.directory, rfl, by simp, fun _ _ => rfl⟩
  | cons t tests ih =>
    obtain ⟨⟨hname, hstep, hpath⟩, hnew⟩ := newIn_cons_iff.mp hnew
    obtain ⟨htake, htakes⟩ := List.forall_mem_cons.mp htakes
    have hat := Directory.fileAt_joinPath hlocate hbase hstep htake
    have hnone : s.directory.lookup? (base ++ [t.fileName]) = none := by
      rw [hat.hasPath_eq] at hpath
      simpa using hpath
    have hwrite : (writeTestClass folder settings t).on s = _ :=
      on_writeTestClass_created hat hnone
    have hlookup := fun location => s.directory.lookup?_set location
      (.file (Text.encode (t.full settings))) (List.append_ne_nil_of_right_ne_nil base
        (List.cons_ne_nil t.fileName []))
    have hfolders := (Directory.growsInto_set_of_none hnone
      (Text.encode (t.full settings))).folders
    generalize s.directory.set (base ++ [t.fileName]) (.file (Text.encode (t.full settings))) = e
      at hwrite hlookup hfolders
    have hne : ∀ other ∈ tests, base ++ [other.fileName] ≠ base ++ [t.fileName] :=
      fun other hother heq => hname (by
        rw [← (List.cons.inj (List.append_cancel_left heq)).1]
        exact List.mem_map_of_mem hother)
    -- the files of the other test classes are still to come
    have hrest : NewIn e folder tests := by
      refine ⟨hnew.nodup, hnew.isStep, fun other hother => ?_⟩
      rw [← hnew.hasPath_eq_false other hother]
      refine hfolders.hasPath_eq fun location hat' => ?_
      obtain rfl := hat'.unique (Directory.fileAt_joinPath hlocate hbase
        (hnew.isStep other hother) (htakes other hother))
      rw [hlookup, if_neg (hne other hother)]
    obtain ⟨d, hon, hfiles, hothers⟩ := ih (s := { s with directory := e })
      (hfolders.locate_eq_ok_iff.mpr hlocate) ((hfolders base).mpr hbase) hrest htakes
    refine ⟨d, ?_, List.forall_mem_cons.mpr ⟨?_, hfiles⟩, fun location hlocation => ?_⟩
    · rw [writeTestClasses, Task.on_bind_ok hwrite, Task.on_bind_ok hon]
      rfl
    · rw [hothers _ fun other hother => (hne other hother).symm, hlookup, if_pos rfl]
    · obtain ⟨hfirst, hlater⟩ := List.forall_mem_cons.mp hlocation
      rw [hothers _ hlater, hlookup, if_neg hfirst]

/-- **Test classes are written only where the file system takes their names.** -/
theorem forall_takes_of_ok {s : Session} {files : List WrittenFile}
    (hstep : ∀ t ∈ tests, Directory.IsStep t.fileName)
    (h : ((writeTestClasses folder settings tests).on s).1 = .ok files) :
    ∀ t ∈ tests, Directory.Takes folder t.fileName := by
  induction tests generalizing s files with
  | nil => simp
  | cons t tests ih =>
    obtain ⟨hstep, hsteps⟩ := List.forall_mem_cons.mp hstep
    rw [writeTestClasses] at h
    rcases puts_or_error folder settings t s with ⟨file, e, hputs, hon⟩ | ⟨error, hon⟩
    · rw [Task.on_bind_ok hon] at h
      rcases hrest : (writeTestClasses folder settings tests).on { s with directory := e }
        with ⟨error | more, u⟩
      · rw [Task.on_bind_error hrest] at h
        cases h
      · refine List.forall_mem_cons.mpr ⟨?_, ih hsteps (congrArg Prod.fst hrest)⟩
        cases hputs with
        | created hat _ => exact .of_locate hstep hat.1
        | appended hat _ _ => exact .of_locate hstep hat.1
    · rw [Task.on_bind_error hon] at h
      cases h

end

/-- The file of a test class is a step unless a slash stands in its name. -/
theorem Suite.isStep_fileName {classes : List Class} {t : Suite.TestClass}
    (h : t ∈ Suite.testClasses classes) (hslash : '/' ∉ t.fileName.toList) :
    Directory.IsStep t.fileName := by
  obtain ⟨name, hname⟩ := Suite.exists_fileName_eq h
  have hlength : t.fileName.length = name.length + 8 := by
    rw [hname, String.length_append]
    rfl
  have hshort : ∀ short : String, short.length < 8 → t.fileName ≠ short := by
    rintro short hlt rfl
    omega
  exact ⟨hshort "" (by decide), ⟨hshort "." (by decide), hshort ".." (by decide)⟩, hslash⟩

/-! ## What is written and what is printed -/

/-- The settings for a project: those of its tests are completed. -/
def Settings.forProject (settings : Settings) (project : Project) : Settings :=
  { settings with generate := settings.generate.forProject project }

section

variable {quiet : Bool} {ignored : List String} {document : DocumentPaths}
  {tests : List Suite.TestClass} {s : Session}

/-- **New test classes of a document are written** when the file system takes their names:
each one is in a file of its own. -/
theorem on_writeDocument_created {project : Project} (settings : GenerateSettings)
    (hload : s.directory.testClasses ignored document = .ok tests)
    (hfolder : s.directory.hasFolder project.directory = true)
    (hnew : NewIn s.directory project.directory tests)
    (htakes : ∀ t ∈ tests, Directory.Takes project.directory t.fileName) :
    ∃ u, (writeDocument quiet ignored ⟨project, settings⟩ document).on s
        = (.ok (tests.map (Suite.TestClass.newFile project.directory)), u)
      ∧ ∀ t ∈ tests, u.directory.readText (joinPath project.directory t.fileName)
        = .ok (t.full settings) := by
  obtain ⟨base, hlocate, hbase⟩ := Directory.exists_of_hasFolder hfolder
  obtain ⟨notices, hnotice⟩ := exists_on_loadTestClasses quiet ignored document s
  rw [hload] at hnotice
  have hwrite : ∃ d, (writeTestClasses project.directory settings tests).on { s with notices }
        = (.ok (tests.map (Suite.TestClass.newFile project.directory)), ⟨d, notices⟩)
      ∧ (∀ t ∈ tests, d.lookup? (base ++ [t.fileName])
        = some (.file (Text.encode (t.full settings))))
      ∧ _ :=
    on_writeTestClasses_created (s := { s with notices }) hlocate hbase hnew htakes
  obtain ⟨d, hon, hfiles, -⟩ := hwrite
  have hgrows := keeps_writeTestClasses project.directory settings tests { s with notices }
  rw [hon] at hgrows
  refine ⟨_, by rw [writeDocument, Task.on_bind_ok hnotice, hon], fun t ht => ?_⟩
  have hat := Directory.fileAt_joinPath hlocate hbase (hnew.isStep t ht) (htakes t ht)
  exact Directory.readText_eq_ok_iff.mpr ⟨_, _, hgrows.folders.fileAt_iff.mpr hat, hfiles t ht,
    Text.decode?_encode _⟩

/-- A document is written only when the file system takes the names of its test classes. -/
theorem forall_takes_of_writeDocument {project : Project} {settings : GenerateSettings}
    {files : List WrittenFile} (hload : s.directory.testClasses ignored document = .ok tests)
    (hstep : ∀ t ∈ tests, Directory.IsStep t.fileName)
    (h : ((writeDocument quiet ignored ⟨project, settings⟩ document).on s).1 = .ok files) :
    ∀ t ∈ tests, Directory.Takes project.directory t.fileName := by
  obtain ⟨notices, hnotice⟩ := exists_on_loadTestClasses quiet ignored document s
  rw [hload] at hnotice
  rw [writeDocument, Task.on_bind_ok hnotice] at h
  exact forall_takes_of_ok hstep h

/-- **The test classes of a document are printed** one behind the other. -/
theorem ending_runArguments_generate {around : Surroundings} {arguments : List String}
    {d : Directory} {config : Option String} {settings : Settings}
    (harguments : Invocation.ofArguments arguments
      = .ok ⟨.generate document false, quiet, config⟩)
    (hsettings : Settings.load d (Settings.withEnvironmentFile d around.environment)
      around.user.settingsFile config = .ok settings)
    (hload : d.testClasses settings.parse.methodNamesToIgnore document = .ok tests)
    (hne : tests ≠ []) :
    (runArguments around arguments d).ending
      = .done ("\n\n".intercalate (tests.map fun t => t.full settings.generate) ++ "\n") := by
  obtain ⟨notices, hnotice⟩ := exists_on_loadTestClasses quiet
    settings.parse.methodNamesToIgnore document { directory := d }
  rw [hload] at hnotice
  have hon : (runGenerate quiet settings document false).on { directory := d }
      = (.ok ("\n\n".intercalate (tests.map fun t => t.full settings.generate) ++ "\n"),
        ⟨d, notices⟩) := by
    rw [runGenerate, Task.on_bind_ok hnotice, if_neg (by simpa using hne)]
    rfl
  rw [runArguments_eq harguments hsettings, Command.run, hon]

end

/-- **What is written is what is printed.** When the test classes of a document are new in a
folder, they are written exactly when the file system takes the names of their files. Each one
then has a file of its own, in order, and a run that prints the tests of the document prints
what is in these files, with two line feeds between them and one at the end. This is so for
the settings that are loaded as they are written with: a target namespace stays, and when
there is none, it is the namespace of the project.

The folder is one of the directory, as nothing outside is found (`Directory.checkPath`). A file
is only refused for its path and its name: there is always room, and no file is write-protected
(`Directory.write`). -/
theorem written_eq_printed {quiet : Bool} {settings : Settings} {document : DocumentPaths}
    {project : Project} {s : Session} {parsed : Intake}
    (hload : ((loadDocument settings.parse.methodNamesToIgnore document).on s).1 = .ok parsed)
    (hne : Suite.testClasses parsed.classes ≠ [])
    (hfolder : s.directory.hasFolder project.directory = true)
    (hnew : ∀ t ∈ Suite.testClasses parsed.classes,
      s.directory.hasPath (joinPath project.directory t.fileName) = false)
    (hnodup : ((Suite.testClasses parsed.classes).map Suite.TestClass.fileName).Nodup)
    (hslash : ∀ t ∈ Suite.testClasses parsed.classes, '/' ∉ t.fileName.toList) :
    let tests := Suite.testClasses parsed.classes
    let namespace? := settings.generate.targetProjectNamespace
    let completed := settings.forProject project
    let work := (writeDocument quiet settings.parse.methodNamesToIgnore
      ⟨project, completed.generate⟩ document).on s
    ((∃ files, work.1 = .ok files)
        ↔ ∀ t ∈ tests, Directory.Takes project.directory t.fileName)
      ∧ (∀ files, work.1 = .ok files →
        files = tests.map (fun t => ⟨joinPath project.directory t.fileName, t.name, .created⟩)
          ∧ ∃ contents : List String,
            List.Forall₂ (fun (file : WrittenFile) content =>
              work.2.directory.readText file.path = .ok content) files contents
            ∧ ∀ around arguments quiet config,
              Invocation.ofArguments arguments = .ok ⟨.generate document false, quiet, config⟩ →
              Settings.load s.directory
                  (Settings.withEnvironmentFile s.directory around.environment)
                  around.user.settingsFile config = .ok completed →
              (runArguments around arguments s.directory).ending
                = .done ("\n\n".intercalate contents ++ "\n"))
      ∧ ((namespace?.getD "").isEmpty = false → completed = settings)
      ∧ ((namespace?.getD "").isEmpty = true → completed
        = { settings with generate := { settings.generate with
            targetProjectNamespace := some project.defaultNamespace } }) := by
  intro tests namespace? completed work
  have htests : s.directory.testClasses settings.parse.methodNamesToIgnore document
      = .ok tests := by
    rw [on_loadDocument] at hload
    exact Directory.testClasses_eq_ok_iff.mpr ⟨parsed, hload, rfl⟩
  have hnewIn : NewIn s.directory project.directory tests :=
    ⟨hnodup, fun t ht => Suite.isStep_fileName ht (hslash t ht), hnew⟩
  have hcreated : (∀ t ∈ tests, Directory.Takes project.directory t.fileName) →
      ∃ u, (writeDocument quiet settings.parse.methodNamesToIgnore
            ⟨project, completed.generate⟩ document).on s
          = (.ok (tests.map (Suite.TestClass.newFile project.directory)), u)
        ∧ ∀ t ∈ tests, u.directory.readText (joinPath project.directory t.fileName)
          = .ok (t.full completed.generate) :=
    on_writeDocument_created completed.generate htests hfolder hnewIn
  have hwritable : ∀ files, work.1 = .ok files →
      ∀ t ∈ tests, Directory.Takes project.directory t.fileName :=
    fun files hok => forall_takes_of_writeDocument htests hnewIn.isStep hok
  refine ⟨⟨fun ⟨files, hok⟩ => hwritable files hok, fun htakes => ?_⟩, fun files hok => ?_,
    fun hnamespace => ?_, fun hnamespace => ?_⟩
  · obtain ⟨u, hon, -⟩ := hcreated htakes
    exact ⟨_, congrArg Prod.fst hon⟩
  · obtain ⟨u, hon, hread⟩ := hcreated (hwritable files hok)
    have hwork : work = _ := hon
    rw [hwork] at hok ⊢
    obtain rfl := Except.ok.inj hok
    refine ⟨rfl, tests.map fun t => t.full completed.generate, ?_,
      fun around arguments quiet config harguments hsettings =>
        ending_runArguments_generate harguments hsettings htests hne⟩
    exact List.forall₂_map_left_iff.mpr (List.forall₂_map_right_iff.mpr
      (List.forall₂_same.mpr hread))
  · have hsame : settings.generate.forProject project = settings.generate :=
      if_neg (Bool.eq_false_iff.mp hnamespace)
    show { settings with generate := settings.generate.forProject project } = settings
    rw [hsame]
  · have hfilled : settings.generate.forProject project
        = { settings.generate with targetProjectNamespace := some project.defaultNamespace } :=
      if_pos hnamespace
    show { settings with generate := settings.generate.forProject project } = _
    rw [hfilled]

/-! ## Two classes -/

/-- Settings with a target namespace. -/
def namedSettings : Settings :=
  { generate := { targetProjectNamespace := some "N" } }

/-- A folder with the classes `A` and `B` and a project for their tests. -/
def pairFolder : Directory :=
  plainFolder [] ["A", "B"]

/-- Surroundings that set this namespace. -/
def namedSurroundings : Surroundings :=
  { bareSurroundings with environment := [("DDT_GENERATE__TARGET_PROJECT_NAMESPACE", "N")] }

/-- The test classes `ATests` and `BTests` are new in this folder. -/
theorem newIn_pairFolder :
    NewIn pairFolder plainProject.directory (["A", "B"].map Suite.TestClass.plain) := by
  have hplain : ∀ name ∈ ["A", "B"], '/' ∉ (Suite.TestClass.plain name).fileName.toList
      ∧ pairFolder.hasPath (joinPath plainProject.directory (Suite.TestClass.plain name).fileName)
        = false := by
    decide +kernel
  have hslash : ∀ t ∈ ["A", "B"].map Suite.TestClass.plain, '/' ∉ t.fileName.toList :=
    List.forall_mem_map.mpr fun name h => (hplain name h).1
  have htests := Suite.testClasses_plain ["A", "B"]
  exact ⟨by decide +kernel, fun t ht => Suite.isStep_fileName (htests ▸ ht) (hslash t ht),
    List.forall_mem_map.mpr fun name h => (hplain name h).2⟩

/-- The file system takes the names of their files. -/
theorem takes_pairFolder : ∀ t ∈ ["A", "B"].map Suite.TestClass.plain,
    Directory.Takes plainProject.directory t.fileName := by
  have hsizes : ∀ name ∈ ["A", "B"],
      (Suite.TestClass.plain name).fileName.utf8ByteSize ≤ Directory.nameLimit
        ∧ (joinPath plainProject.directory (Suite.TestClass.plain name).fileName).utf8ByteSize
          ≤ Directory.pathLimit
        ∧ '\x00' ∉ (Suite.TestClass.plain name).fileName.toList := by
    decide +kernel
  exact List.forall_mem_map.mpr fun name h =>
    ⟨(hsizes name h).1, (hsizes name h).2.1, (hsizes name h).2.2⟩

/-- The test classes `ATests` and `BTests` are written into files that hold what is printed for
them. -/
theorem written_eq_printed_pairFolder :
    ((loadDocument [] plainPaths).on { directory := pairFolder }).1
        = .ok { classes := ["A", "B"].map Class.plain }
      ∧ ∀ work, work = (writeDocument false namedSettings.parse.methodNamesToIgnore
            ⟨plainProject, (namedSettings.forProject plainProject).generate⟩ plainPaths).on
          { directory := pairFolder } →
        work.1 = .ok [⟨"./T/ATests.cs", "ATests", .created⟩, ⟨"./T/BTests.cs", "BTests", .created⟩]
          ∧ ∃ first second,
            work.2.directory.readText "./T/ATests.cs" = .ok first
              ∧ work.2.directory.readText "./T/BTests.cs" = .ok second
              ∧ (runArguments namedSurroundings
                  ["generate", "--source", "d.cs", "--symbols", "d.json"] pairFolder).ending
                = .done ("\n\n".intercalate [first, second] ++ "\n") := by
  have hload : ((loadDocument [] plainPaths).on { directory := pairFolder }).1
      = .ok { classes := ["A", "B"].map Class.plain } := by
    rw [on_loadDocument]
    exact Directory.document_plainPaths isPlainName_pair (by decide) rfl rfl
  refine ⟨hload, fun work hwork => ?_⟩
  have htests : Suite.testClasses (["A", "B"].map Class.plain)
      = ["A", "B"].map Suite.TestClass.plain := Suite.testClasses_plain _
  have hnew := newIn_pairFolder
  rw [← htests] at hnew
  obtain ⟨hiff, hprinted, -⟩ :=
    @written_eq_printed false namedSettings plainPaths plainProject { directory := pairFolder } _
      hload (by rw [htests]; exact List.cons_ne_nil _ _) (by decide +kernel)
      hnew.hasPath_eq_false hnew.nodup fun t ht => (hnew.isStep t ht).slash_notMem
  rw [← hwork] at hiff hprinted
  obtain ⟨files, hok⟩ := hiff.mpr (by rw [htests]; exact takes_pairFolder)
  obtain ⟨hfiles, contents, hcontents, hrun⟩ := hprinted files hok
  have hlisted : (["A", "B"].map Suite.TestClass.plain).map
      (fun t => (⟨joinPath "./T" t.fileName, t.name, .created⟩ : WrittenFile))
      = [⟨"./T/ATests.cs", "ATests", .created⟩, ⟨"./T/BTests.cs", "BTests", .created⟩] := by
    decide +kernel
  obtain rfl := hfiles.trans ((congrArg _ htests).trans hlisted)
  obtain _ | ⟨hfirst, _ | ⟨hsecond, _ | _⟩⟩ := hcontents
  have hgenerate := hrun namedSurroundings ["generate", "--source", "d.cs", "--symbols", "d.json"]
    false none rfl (eq_ok_of_toOption (by decide +kernel))
  exact ⟨hok, _, _, hfirst, hsecond, hgenerate⟩

/-! ## A class with a long name -/

/-- A name of some length. -/
def longName (n : Nat) : String :=
  String.ofList (List.replicate n 'A')

theorem length_longName (n : Nat) : (longName n).length = n := by
  rw [longName, String.length_ofList, List.length_replicate]

theorem eq_of_mem_longName {n : Nat} {c : Char} (h : c ∈ (longName n).toList) : c = 'A' := by
  rw [longName, String.toList_ofList] at h
  exact List.eq_of_mem_replicate h

/-- Long names may be those of plain classes. -/
theorem isPlainName_longName {n : Nat} (hlong : 6 < n) (hlt : n < 2 ^ 31) :
    IsPlainName (longName n) := by
  have hlength := length_longName n
  have hne : ∀ short : String, short.length ≤ 6 → longName n ≠ short := by
    rintro short hshort rfl
    omega
  have hchars : ∀ c ∈ (longName n).toList, isWordChar c = true := by
    intro c hc
    rw [eq_of_mem_longName hc]
    decide
  exact ⟨⟨fun hnil => hne "" (by decide) (String.toList_eq_nil_iff.mp hnil), hne _ (by decide),
    hchars⟩, ⟨hne _ (by decide), hne _ (by decide)⟩, by rwa [hlength]⟩

/-- The file of the test class of a long name is a step that is not taken. -/
theorem isStep_longName {n : Nat} (hlong : 247 < n) :
    Directory.IsStep (Suite.TestClass.plain (longName n)).fileName
      ∧ ∀ folder, ¬Directory.Takes folder (Suite.TestClass.plain (longName n)).fileName := by
  have hname : (Suite.TestClass.plain (longName n)).fileName = longName n ++ "Tests.cs" :=
    String.append_assoc ..
  have hmem : Suite.TestClass.plain (longName n) ∈ Suite.testClasses [Class.plain (longName n)] :=
    (Suite.testClasses_plain [longName n]).symm ▸ .head _
  refine ⟨Suite.isStep_fileName hmem ?_, fun folder htakes => ?_⟩
  · rw [hname, String.toList_append, List.mem_append, not_or]
    exact ⟨fun hslash => absurd (eq_of_mem_longName hslash) (by decide), by decide⟩
  · have hle := htakes.length_le
    rw [hname, String.length_append, length_longName] at hle
    have hshort : n + 8 ≤ 255 := hle
    omega

/-- A folder with a class whose test class has a file name of 256 characters. -/
def longFolder : Directory :=
  plainFolder [] [longName 248]

/-- **A test class is not written when the name of its file is too long**, although it is new
in the folder and is printed. -/
theorem not_written_longFolder :
    let t := Suite.TestClass.plain (longName 248)
    let start : Session := { directory := longFolder }
    ((loadDocument [] plainPaths).on start).1 = .ok { classes := [Class.plain (longName 248)] }
      ∧ Suite.testClasses [Class.plain (longName 248)] = [t]
      ∧ longFolder.hasFolder plainProject.directory = true
      ∧ longFolder.hasPath (joinPath plainProject.directory t.fileName) = false
      ∧ '/' ∉ t.fileName.toList
      ∧ namedSettings.generate.targetProjectNamespace = some "N"
      ∧ (runArguments namedSurroundings ["generate", "--source", "d.cs", "--symbols", "d.json"]
          longFolder).ending = .done ("\n\n".intercalate [t.full namedSettings.generate] ++ "\n")
      ∧ ∃ error, ((writeDocument false [] ⟨plainProject, namedSettings.generate⟩ plainPaths).on
        start).1 = .error error := by
  intro t start
  have hdocument : longFolder.document [] plainPaths
      = .ok { classes := [Class.plain (longName 248)] } :=
    Directory.document_plainPaths (List.forall_mem_singleton.mpr
      (isPlainName_longName (by decide) (by decide))) (by decide) rfl rfl
  have htests : longFolder.testClasses [] plainPaths = .ok [t] :=
    Directory.testClasses_eq_ok_iff.mpr ⟨_, hdocument, rfl⟩
  obtain ⟨hstep, htakes⟩ := @isStep_longName 248 (by decide)
  refine ⟨by rw [on_loadDocument, hdocument], rfl, by decide +kernel,
    Directory.hasPath_joinPath_of_not_takes hstep (htakes _), hstep.slash_notMem, rfl, ?_, ?_⟩
  · have hsettings : Settings.load longFolder
        (Settings.withEnvironmentFile longFolder namedSurroundings.environment)
        namedSurroundings.user.settingsFile none = .ok namedSettings :=
      eq_ok_of_toOption (by decide +kernel)
    have harguments : Invocation.ofArguments
        ["generate", "--source", "d.cs", "--symbols", "d.json"]
        = .ok ⟨.generate plainPaths false, false, none⟩ := rfl
    rw [ending_runArguments_generate harguments hsettings htests (List.cons_ne_nil _ _)]
    rfl
  · cases hwork : ((writeDocument false [] ⟨plainProject, namedSettings.generate⟩ plainPaths).on
        start).1 with
    | error error => exact ⟨error, rfl⟩
    | ok files =>
      have htaken := forall_takes_of_writeDocument (s := start) htests
        (List.forall_mem_singleton.mpr hstep) hwork
      exact absurd (htaken t (.head _)) (htakes _)

end TestScaffold
