import TestScaffold.Proofs.Command.PlainDocument
/-!
# Nothing is lost

Whatever the program is run with, the files of its directory keep their bytes at their
beginning and its folders stay (`growsInto_runAll`): every step of a command that changes
anything is one that writes a test class or the global usings, and those let the directory
grow, also when a later step fails.

Most runs change nothing at all. `Command.WritesNothing` lists them: a command that only
prints, one that selects no test project, and one whose documents have no test class. The runs
that do change something create a file or append to one; in a folder that is ready for tests
both can be followed to the end (`Directory.IsReady.exists_runArguments`).
-/

namespace TestScaffold

/-! ## Work that only reads -/

theorem keeps_loadDocument (ignored : List String) (document : DocumentPaths) :
    (loadDocument ignored document).Keeps Eq :=
  fun s => by rw [on_loadDocument]

/-- What a manifest lists depends on the directory alone. -/
theorem exists_on_readManifest (path : String) (d : Directory) :
    ∃ documents, ∀ s : Session, s.directory = d →
      (readManifest path).on s = (documents, s) := by
  unfold readManifest
  cases htext : d.readText path with
  | error cause =>
    exact ⟨_, fun s hs => Task.on_bind_error (by rw [Task.on_readText, hs, htext]; rfl) _⟩
  | ok text =>
    have hread : ∀ s : Session, s.directory = d →
        (Task.readText .readManifest path).on s = (.ok text, s) := fun s hs => by
      rw [Task.on_readText, hs, htext]
      rfl
    cases hdocuments : Json.read? (Json.list? DocumentPaths.ofJson?) text with
    | none =>
      exact ⟨.error _, fun s hs => by rw [Task.on_bind_ok (hread s hs), hdocuments]; rfl⟩
    | some documents =>
      exact ⟨.ok _, fun s hs => by rw [Task.on_bind_ok (hread s hs), hdocuments]; rfl⟩

/-- Loading the settings reads the directory and does nothing else. -/
theorem Invocation.on_loadSettings (invocation : Invocation) (around : Surroundings)
    (s : Session) :
    (invocation.loadSettings around).on s
      = ((Settings.load s.directory
            (Settings.withEnvironmentFile s.directory around.environment)
            around.user.settingsFile invocation.config).mapError (.settings invocation.config),
        s) := by
  unfold Invocation.loadSettings
  rw [Task.on_bind_ok (Task.on_get s)]
  dsimp only
  cases Settings.load s.directory _ around.user.settingsFile invocation.config <;> rfl

theorem keeps_readManifest (path : String) : (readManifest path).Keeps Eq := by
  intro s
  obtain ⟨documents, hon⟩ := exists_on_readManifest path s.directory
  rw [hon s rfl]

theorem Invocation.keeps_loadSettings (invocation : Invocation) (around : Surroundings) :
    (invocation.loadSettings around).Keeps Eq :=
  fun s => by rw [invocation.on_loadSettings]

theorem keeps_resolveTarget (quiet : Bool) (user : UserFolders) (settings : GenerateSettings)
    (options : TargetOptions) : (resolveTarget quiet user settings options).Keeps Eq := by
  intro s
  unfold resolveTarget
  rw [Task.on_bind_ok (Task.on_get s)]
  split
  · rfl
  split
  · rfl
  · exact (Task.keeps_notice quiet _).bind .trans (fun _ _ => rfl) s

/-- There is no target when no test project is found and selected. -/
theorem leaves_resolveTarget {d : Directory} {quiet : Bool} {user : UserFolders}
    {settings : GenerateSettings} {options : TargetOptions}
    (h : ∀ projects, projectsIn? d user options.workspace = some projects →
      selectTestProject? projects options.testProject = none) :
    (resolveTarget quiet user settings options).Leaves d (· = none) := by
  intro s hs
  refine ⟨(keeps_resolveTarget quiet user settings options s).symm.trans hs, fun found hok => ?_⟩
  unfold resolveTarget at hok
  rw [Task.on_bind_ok (Task.on_get s), hs] at hok
  split at hok
  · cases hok
  rename_i projects hprojects
  obtain ⟨notices, hnotice⟩ := Task.exists_on_notice quiet
    (options.workspace ++ ": no test project found") s
  rw [h projects hprojects] at hok
  dsimp only at hok
  rw [Task.on_bind_ok hnotice] at hok
  exact (Except.ok.inj hok).symm

/-- **The target is the selected test project**, when there is one. -/
theorem on_resolveTarget {s : Session} {user : UserFolders} {options : TargetOptions}
    {projects : List Project} {project : Project} (quiet : Bool) (settings : GenerateSettings)
    (hprojects : projectsIn? s.directory user options.workspace = some projects)
    (hproject : selectTestProject? projects options.testProject = some project) :
    (resolveTarget quiet user settings options).on s
      = (.ok (some ⟨project, settings.forProject project⟩), s) := by
  unfold resolveTarget
  rw [Task.on_bind_ok (Task.on_get s), hprojects]
  dsimp only
  rw [hproject]
  rfl

/-! ## Commands -/

theorem keeps_runParse (settings : Settings) (document : DocumentPaths) :
    (runParse settings document).Keeps Eq :=
  (keeps_loadDocument _ document).bind .trans fun _ _ => rfl

theorem keeps_runGenerate (quiet : Bool) (settings : Settings) (document : DocumentPaths)
    (bare : Bool) : (runGenerate quiet settings document bare).Keeps Eq := by
  refine (keeps_loadTestClasses quiet _ document).bind .trans fun tests s => ?_
  split <;> rfl

theorem keeps_runWrite (quiet : Bool) (user : UserFolders) (settings : Settings)
    (document : DocumentPaths) (options : TargetOptions) :
    (runWrite quiet user settings document options).Keeps Directory.GrowsInto := by
  refine ((keeps_resolveTarget quiet user _ options).of_eq .refl).bind .trans
    fun target? => ?_
  cases target? with
  | none => exact fun s => .refl s.directory
  | some target =>
    refine (keeps_writeDocument quiet _ target document).bind .trans fun files => ?_
    split
    · exact fun s => .refl s.directory
    · exact (keeps_usingsAfter target files).bind .trans fun _ s => .refl s.directory

theorem keeps_runWriteProject (quiet : Bool) (user : UserFolders) (settings : Settings)
    (manifest : String) (options : TargetOptions) :
    (runWriteProject quiet user settings manifest options).Keeps Directory.GrowsInto := by
  refine ((keeps_readManifest manifest).of_eq .refl).bind .trans fun documents => ?_
  refine ((keeps_resolveTarget quiet user _ options).of_eq .refl).bind .trans
    fun target? => ?_
  cases target? with
  | none => exact fun s => .refl s.directory
  | some target =>
    exact (keeps_writeDocuments quiet _ target documents).bind .trans fun _ s =>
      .refl s.directory

/-- **Every command lets the directory grow**, whether it succeeds or fails. -/
theorem Command.keeps_run (quiet : Bool) (user : UserFolders) (settings : Settings)
    (command : Command) : (command.run quiet user settings).Keeps Directory.GrowsInto := by
  cases command with
  | parse document => exact (keeps_runParse settings document).of_eq .refl
  | generate document bare =>
    exact (keeps_runGenerate quiet settings document bare).of_eq .refl
  | write document options => exact keeps_runWrite quiet user settings document options
  | writeProject manifest options =>
    exact keeps_runWriteProject quiet user settings manifest options

theorem Invocation.keeps_run (invocation : Invocation) (around : Surroundings) :
    (invocation.run around).Keeps Directory.GrowsInto :=
  ((invocation.keeps_loadSettings around).of_eq .refl).bind .trans fun settings =>
    invocation.command.keeps_run invocation.quiet around.user settings

/-! ## Documents without tests -/

/-- **A document has no test class** in a directory: it cannot be loaded, or none is made of
it. -/
def Directory.HasNoTests (d : Directory) (ignored : List String) (document : DocumentPaths) :
    Prop :=
  ∀ tests, ((loadTestClasses true ignored document).on { directory := d }).1 = .ok tests →
    tests = []

section

variable {d : Directory} {ignored : List String} {document : DocumentPaths}
  {documents : List DocumentPaths}

theorem leaves_loadTestClasses (quiet : Bool) (h : d.HasNoTests ignored document) :
    (loadTestClasses quiet ignored document).Leaves d (· = []) := by
  intro s hs
  obtain ⟨notices, hrun⟩ := exists_on_loadTestClasses quiet ignored document s
  obtain ⟨notices', hrun'⟩ :=
    exists_on_loadTestClasses true ignored document ({ directory := d } : Session)
  rw [hrun, hs]
  exact ⟨rfl, fun tests hok => h tests (by rw [hrun']; exact hok)⟩

/-- Nothing is written for a document without test classes. -/
theorem leaves_writeDocument (quiet : Bool) (target : Target)
    (h : d.HasNoTests ignored document) :
    (writeDocument quiet ignored target document).Leaves d (· = []) := by
  refine (leaves_loadTestClasses quiet h).bind ?_
  rintro _ rfl
  exact Task.leaves_pure d rfl

theorem leaves_writeEach (quiet : Bool) (target : Target)
    (h : ∀ document ∈ documents, d.HasNoTests ignored document) :
    (writeEach quiet ignored target documents).Leaves d (·.1 = []) := by
  induction documents with
  | nil => exact Task.leaves_pure d rfl
  | cons document documents ih =>
    obtain ⟨hdocument, hdocuments⟩ := List.forall_mem_cons.mp h
    rw [writeEach]
    refine (leaves_writeDocument quiet target hdocument).attempt.bind fun result hresult => ?_
    refine (ih hdocuments).bind ?_
    rintro ⟨_, failures⟩ rfl
    cases result with
    | error error => exact Task.leaves_pure d rfl
    | ok written =>
      obtain rfl := hresult written rfl
      exact Task.leaves_pure d rfl

/-- **Nothing is written for documents without test classes**, and the project gets no global
usings for them. -/
theorem leaves_writeDocuments (quiet : Bool) (target : Target)
    (h : ∀ document ∈ documents, d.HasNoTests ignored document) :
    (writeDocuments quiet ignored target documents).Leaves d fun _ => True := by
  refine (leaves_writeEach quiet target h).bind ?_
  rintro ⟨_, failures⟩ rfl
  exact Task.leaves_pure d trivial

end

/-! ## Runs that write nothing -/

namespace Command

/-- The options of a command that writes. -/
def options? : Command → Option TargetOptions
  | parse _ | generate _ _ => none
  | write _ options | writeProject _ options => some options

/-- The documents of a command. -/
def documents (d : Directory) : Command → Except CommandError (List DocumentPaths)
  | parse document | generate document _ | write document _ => .ok [document]
  | writeProject manifest _ => ((readManifest manifest).on { directory := d }).1

/-- **The commands that write nothing into a directory.** -/
inductive WritesNothing (user : UserFolders) (settings : Settings) (d : Directory) :
    Command → Prop
  /-- The classes of a document are printed. -/
  | parse (document : DocumentPaths) : WritesNothing user settings d (.parse document)
  /-- The test classes of a document are printed. -/
  | generate (document : DocumentPaths) (bare : Bool) :
    WritesNothing user settings d (.generate document bare)
  /-- No test project is selected in the workspace. -/
  | noProject {command : Command} {options : TargetOptions}
    (hoptions : command.options? = some options)
    (hproject : ∀ projects, projectsIn? d user options.workspace = some projects →
      selectTestProject? projects options.testProject = none) :
    WritesNothing user settings d command
  /-- No document has a test class. -/
  | noTests {command : Command}
    (hdocuments : ∀ documents, command.documents d = .ok documents →
      ∀ document ∈ documents, d.HasNoTests settings.parse.methodNamesToIgnore document) :
    WritesNothing user settings d command

variable {user : UserFolders} {settings : Settings} {d : Directory} {command : Command}

theorem leaves_runWrite_of_noTests (quiet : Bool) (options : TargetOptions)
    {document : DocumentPaths}
    (h : d.HasNoTests settings.parse.methodNamesToIgnore document) :
    (runWrite quiet user settings document options).Leaves d fun _ => True := by
  refine ((keeps_resolveTarget quiet user _ options).leaves d).bind fun target? _ => ?_
  cases target? with
  | none => exact Task.leaves_pure d trivial
  | some target =>
    refine (leaves_writeDocument quiet target h).bind ?_
    rintro _ rfl
    exact Task.leaves_pure d trivial

theorem leaves_runWriteProject_of_noTests (quiet : Bool) (options : TargetOptions)
    {manifest : String}
    (h : ∀ documents, (Command.writeProject manifest options).documents d = .ok documents →
      ∀ document ∈ documents, d.HasNoTests settings.parse.methodNamesToIgnore document) :
    (runWriteProject quiet user settings manifest options).Leaves d fun _ => True := by
  have hmanifest : (readManifest manifest).Leaves d fun documents =>
      ∀ document ∈ documents, d.HasNoTests settings.parse.methodNamesToIgnore document := by
    intro s hs
    obtain ⟨documents, hon⟩ := exists_on_readManifest manifest d
    rw [hon s hs]
    refine ⟨hs, fun listed hok => h listed ?_⟩
    show ((readManifest manifest).on { directory := d }).1 = .ok listed
    rw [hon _ rfl]
    exact hok
  refine hmanifest.bind fun documents hdocuments => ?_
  refine ((keeps_resolveTarget quiet user _ options).leaves d).bind fun target? _ => ?_
  cases target? with
  | none => exact Task.leaves_pure d trivial
  | some target =>
    exact (leaves_writeDocuments quiet target hdocuments).bind fun _ _ =>
      Task.leaves_pure d trivial

/-- **A command that writes nothing leaves the directory as it is.** -/
theorem WritesNothing.leaves_run (h : command.WritesNothing user settings d) (quiet : Bool) :
    (command.run quiet user settings).Leaves d fun _ => True := by
  cases h with
  | parse document => exact (keeps_runParse settings document).leaves d
  | generate document bare => exact (keeps_runGenerate quiet settings document bare).leaves d
  | noProject hoptions hproject =>
    cases command with
    | parse document => cases hoptions
    | generate document bare => cases hoptions
    | write document options =>
      cases hoptions
      refine (leaves_resolveTarget hproject).bind ?_
      rintro _ rfl
      exact Task.leaves_pure d trivial
    | writeProject manifest options =>
      cases hoptions
      refine ((keeps_readManifest manifest).leaves d).bind fun documents _ => ?_
      refine (leaves_resolveTarget hproject).bind ?_
      rintro _ rfl
      exact Task.leaves_pure d trivial
  | noTests hdocuments =>
    cases command with
    | parse document => exact (keeps_runParse settings document).leaves d
    | generate document bare => exact (keeps_runGenerate quiet settings document bare).leaves d
    | write document options =>
      exact leaves_runWrite_of_noTests quiet options
        (hdocuments [document] rfl document (.head _))
    | writeProject manifest options =>
      exact leaves_runWriteProject_of_noTests quiet options hdocuments

end Command

/-! ## Runs of the program -/

/-- The directory behind some runs of the program, one after another. -/
def runAll (runs : List (Surroundings × List String)) (d : Directory) : Directory :=
  runs.foldl (fun d (around, arguments) => (runArguments around arguments d).session.directory) d

theorem runAll_cons (around : Surroundings) (arguments : List String)
    (runs : List (Surroundings × List String)) (d : Directory) :
    runAll ((around, arguments) :: runs) d
      = runAll runs (runArguments around arguments d).session.directory :=
  rfl

/-- A run of the program leaves what its command leaves. -/
theorem directory_runArguments {around : Surroundings} {arguments : List String}
    {d : Directory} {invocation : Invocation}
    (h : Invocation.ofArguments arguments = .ok invocation) :
    (runArguments around arguments d).session.directory
      = ((invocation.run around).on { directory := d }).2.directory := by
  unfold runArguments
  rw [h]
  dsimp only [Task.on]
  generalize (invocation.run around).run.run { directory := d } = outcome
  obtain ⟨_ | _, _⟩ := outcome <;> rfl

/-- **A run of the program is a run of its command** with the settings that are loaded. -/
theorem runArguments_eq {around : Surroundings} {arguments : List String} {d : Directory}
    {invocation : Invocation} {settings : Settings}
    (harguments : Invocation.ofArguments arguments = .ok invocation)
    (hsettings : Settings.load d (Settings.withEnvironmentFile d around.environment)
      around.user.settingsFile invocation.config = .ok settings) :
    runArguments around arguments d =
      match (invocation.command.run invocation.quiet around.user settings).on
        { directory := d } with
      | (.ok output, session) => ⟨.done output, session⟩
      | (.error error, session) => ⟨.failed error, session⟩ := by
  have hload := invocation.on_loadSettings around { directory := d }
  rw [hsettings] at hload
  have hrun : (invocation.run around).on { directory := d }
      = (invocation.command.run invocation.quiet around.user settings).on { directory := d } :=
    Task.on_bind_ok hload _
  unfold runArguments
  rw [harguments, ← hrun]
  rfl

/-- A run that ends well prints what its command comes to. -/
theorem exists_on_of_exitCode_eq_zero {around : Surroundings} {arguments : List String}
    {d : Directory} {invocation : Invocation} {settings : Settings}
    (harguments : Invocation.ofArguments arguments = .ok invocation)
    (hsettings : Settings.load d (Settings.withEnvironmentFile d around.environment)
      around.user.settingsFile invocation.config = .ok settings)
    (hexit : (runArguments around arguments d).ending.exitCode = 0) :
    ∃ output session,
      (invocation.command.run invocation.quiet around.user settings).on { directory := d }
          = (.ok output, session)
        ∧ runArguments around arguments d = ⟨.done output, session⟩ := by
  rw [runArguments_eq harguments hsettings] at hexit ⊢
  rcases hon : (invocation.command.run invocation.quiet around.user settings).on
    { directory := d } with ⟨error | output, session⟩ <;> rw [hon] at hexit
  · exact absurd (show (1 : UInt32) = 0 from hexit) (by decide)
  · exact ⟨output, session, rfl, rfl⟩

theorem growsInto_runArguments (around : Surroundings) (arguments : List String)
    (d : Directory) : d.GrowsInto (runArguments around arguments d).session.directory := by
  cases h : Invocation.ofArguments arguments with
  | error reason =>
    unfold runArguments
    rw [h]
    exact .refl d
  | ok invocation =>
    rw [directory_runArguments h]
    exact invocation.keeps_run around { directory := d }

/-- A run that comes to a command that writes nothing leaves the directory as it is, and so
does one that comes to no command. -/
theorem directory_runArguments_of_writesNothing {around : Surroundings}
    {arguments : List String} {d : Directory}
    (h : ∀ invocation settings, Invocation.ofArguments arguments = .ok invocation →
      ((invocation.loadSettings around).on { directory := d }).1 = .ok settings →
      invocation.command.WritesNothing around.user settings d) :
    (runArguments around arguments d).session.directory = d := by
  cases harguments : Invocation.ofArguments arguments with
  | error reason =>
    unfold runArguments
    rw [harguments]
  | ok invocation =>
    have hkeeps := invocation.keeps_loadSettings around { directory := d }
    rw [directory_runArguments harguments, Invocation.run]
    rcases hloaded : (invocation.loadSettings around).on { directory := d }
      with ⟨error | settings, s⟩ <;> rw [hloaded] at hkeeps
    · rw [Task.on_bind_error hloaded]
      exact hkeeps.symm
    · rw [Task.on_bind_ok hloaded]
      have hnothing := h invocation settings harguments (by rw [hloaded])
      exact (hnothing.leaves_run invocation.quiet s hkeeps.symm).1

/-! ## Runs that write -/

/-- No environment variables, and no home folder. -/
def bareSurroundings : Surroundings :=
  ⟨[], { config := "config" }⟩

/-- The command line that writes the document of a plain folder. -/
def writeArguments : List String :=
  ["write", "--source", "d.cs", "--symbols", "d.json", "--workspace", "."]

/-- The bytes of the tests of the class `A` in a file of their own. -/
def createdBytes : List UInt8 :=
  Text.encode ((Suite.TestClass.plain "A").full plainTarget.settings)

/-- The bytes of the tests of the class `A` behind those that a file has already. -/
def appendedBytes : List UInt8 :=
  Text.encode ("\n\n" ++ ((Suite.TestClass.plain "A").withPrefix "Ddt").bare plainTarget.settings)

/-- The file for the tests of the class `A`. -/
def plainLocation : Location :=
  ["T", "ATests.cs"]

/-- **A folder is ready** for the tests of the class `A`: the document and the test project are
found, and there are global usings. -/
structure Directory.IsReady (d : Directory) : Prop where
  /-- There are no settings. -/
  settings : Settings.load d (Settings.withEnvironmentFile d bareSurroundings.environment)
    bareSurroundings.user.settingsFile none = .ok {}
  /-- The test project is the only project. -/
  project : projectsIn? d bareSurroundings.user "." = some [plainProject]
  /-- The source text of the document is there. -/
  source : d.lookup? ["d.cs"] = some (.file (Text.encode (plainText ["A"])))
  /-- The symbols of the document are there. -/
  symbols : d.lookup? ["d.json"] = some (.file (Text.encode (plainSymbolsText ["A"])))
  /-- The file for the tests is in a folder. -/
  fileAt : d.FileAt (joinPath plainTarget.project.directory (Suite.TestClass.plain "A").fileName)
    plainLocation
  /-- The global usings are there. -/
  usings : d.hasPath plainTarget.usingsPath = true

namespace Directory.IsReady

variable {d e : Directory} {file : WrittenFile}

/-- The class `A` is loaded. -/
theorem testClasses_eq (h : d.IsReady) :
    d.testClasses [] plainPaths = .ok [Suite.TestClass.plain "A"] := by
  have hplain : ∀ name ∈ ["A"], IsPlainName name :=
    List.forall_mem_singleton.mpr (isPlainName_pair "A" (.head _))
  exact testClasses_eq_ok_iff.mpr ⟨_, document_plainPaths hplain (by decide) h.source h.symbols,
    Suite.testClasses_plain ["A"]⟩

/-- **A run writes the tests of the class `A`** and nothing else. -/
theorem exists_runArguments (h : d.IsReady)
    (hwrite : ∀ notices, (writeTestClass plainTarget.project.directory plainTarget.settings
      (.plain "A")).on ⟨d, notices⟩ = (.ok file, ⟨e, notices⟩)) (hgrows : d.GrowsInto e) :
    ∃ notices, runArguments bareSurroundings writeArguments d
      = ⟨.done (reportText (WriteReport.toJson ⟨plainTarget, [file], none, []⟩)), e, notices⟩ := by
  have harguments : Invocation.ofArguments writeArguments
      = .ok ⟨.write plainPaths ⟨".", none⟩, false, none⟩ := rfl
  obtain ⟨notices, hload⟩ := exists_on_loadTestClasses false [] plainPaths { directory := d }
  rw [h.testClasses_eq] at hload
  have hdocument : (writeDocument false [] plainTarget plainPaths).on { directory := d }
      = (.ok [file], ⟨e, notices⟩) := by
    rw [writeDocument, Task.on_bind_ok hload, writeTestClasses, Task.on_bind_ok (hwrite notices),
      writeTestClasses]
    rfl
  have husings : (usingsAfter plainTarget [file]).on ⟨e, notices⟩ = (.ok none, ⟨e, notices⟩) := by
    have hpath := hgrows.hasPath_eq h.usings
    unfold Target.usingsPath at hpath
    unfold usingsAfter ensureUsingsFile
    rw [if_neg (by simp)]
    dsimp only
    rw [Task.on_bind_ok (Task.on_hasPath ..), hpath]
    rfl
  have htarget := @on_resolveTarget { directory := d } bareSurroundings.user ⟨".", none⟩
    [plainProject] plainProject false {} h.project rfl
  have hon : (runWrite false bareSurroundings.user {} plainPaths ⟨".", none⟩).on { directory := d }
      = (.ok (reportText (WriteReport.toJson ⟨plainTarget, [file], none, []⟩)), ⟨e, notices⟩) := by
    unfold runWrite
    rw [Task.on_bind_ok htarget]
    exact (Task.on_bind_ok hdocument _).trans (Task.on_bind_ok husings _)
  exact ⟨notices, by rw [runArguments_eq harguments h.settings, Command.run, hon]⟩

/-- **A run creates the file** for the tests of the class `A`. -/
theorem exists_runArguments_created (h : d.IsReady) (hnone : d.lookup? plainLocation = none) :
    ∃ notices, runArguments bareSurroundings writeArguments d
      = ⟨.done (reportText (WriteReport.toJson
          ⟨plainTarget, [⟨"./T/ATests.cs", "ATests", .created⟩], none, []⟩)),
        d.set plainLocation (.file createdBytes), notices⟩ :=
  h.exists_runArguments (fun _ => on_writeTestClass_created h.fileAt hnone)
    (growsInto_set_of_none hnone _)

/-- **A run appends to the file** with the tests of the class `A`. -/
theorem exists_runArguments_appended (h : d.IsReady) {bytes : List UInt8} {old : String}
    (hfile : d.lookup? plainLocation = some (.file bytes))
    (hdecode : Text.decode? bytes = some old) :
    ∃ notices, runArguments bareSurroundings writeArguments d
      = ⟨.done (reportText (WriteReport.toJson
          ⟨plainTarget, [⟨"./T/ATests.cs", "DdtATests", .appended⟩], none, []⟩)),
        d.set plainLocation (.file (bytes ++ appendedBytes)), notices⟩ :=
  h.exists_runArguments (fun _ => on_writeTestClass_appended h.fileAt hfile hdecode)
    (growsInto_set_append hfile _)

end Directory.IsReady

/-- A folder that is ready for the tests of the class `A` and has none. -/
def freshFolder : Directory :=
  plainFolder [(["T", "Usings.cs"], .file [])] ["A"]

/-- This folder with a file for the tests. -/
def testedFolder (bytes : List UInt8) : Directory :=
  freshFolder.set plainLocation (.file bytes)

theorem lookup?_testedFolder (bytes : List UInt8) :
    (testedFolder bytes).lookup? plainLocation = some (.file bytes) := by
  rw [testedFolder, Directory.lookup?_set _ _ _ (show plainLocation ≠ [] by decide), if_pos rfl]

theorem isReady_freshFolder : freshFolder.IsReady where
  settings := rfl
  project := projectsIn?_singleton rfl rfl (by decide +kernel)
  source := rfl
  symbols := rfl
  fileAt := ⟨rfl, by decide +kernel⟩
  usings := rfl

theorem isReady_testedFolder (bytes : List UInt8) : (testedFolder bytes).IsReady where
  settings := rfl
  project := projectsIn?_singleton rfl rfl rfl
  source := rfl
  symbols := rfl
  fileAt := ⟨rfl, by decide +kernel⟩
  usings := rfl

/-- A run in the fresh folder creates the file with the tests. -/
theorem exists_runArguments_freshFolder :
    ∃ notices, runArguments bareSurroundings writeArguments freshFolder
      = ⟨.done (reportText (WriteReport.toJson
          ⟨plainTarget, [⟨"./T/ATests.cs", "ATests", .created⟩], none, []⟩)),
        testedFolder createdBytes, notices⟩ :=
  isReady_freshFolder.exists_runArguments_created rfl

/-- A run in the tested folder appends to the file with the tests. -/
theorem exists_runArguments_testedFolder {bytes : List UInt8} {old : String}
    (hdecode : Text.decode? bytes = some old) :
    ∃ notices, runArguments bareSurroundings writeArguments (testedFolder bytes)
      = ⟨.done (reportText (WriteReport.toJson
          ⟨plainTarget, [⟨"./T/ATests.cs", "DdtATests", .appended⟩], none, []⟩)),
        testedFolder (bytes ++ appendedBytes), notices⟩ := by
  obtain ⟨notices, hrun⟩ := (isReady_testedFolder bytes).exists_runArguments_appended
    (lookup?_testedFolder bytes) hdecode
  exact ⟨notices, hrun.trans (by rw [testedFolder, Directory.set_set]; rfl)⟩

/-! ## Any runs -/

/-- **No run loses anything.** Behind any runs of the program, with any arguments and
surroundings and however they end, the files of a directory keep their bytes, maybe with more
behind them, and its folders are the same. A run leaves the directory exactly as it is when
the command it comes to, with the settings it loads, is one that writes nothing.

This is about the directory alone: absolute paths and those that climb above it find nothing
(`Directory.checkPath`). And a write that fails is one that is refused, which leaves the file
as it was (`Directory.write`); a write that breaks off halfway is not accounted for. -/
theorem growsInto_runAll (d : Directory) :
    (∀ runs, d.GrowsInto (runAll runs d))
      ∧ ∀ around arguments,
        (∀ invocation settings, Invocation.ofArguments arguments = .ok invocation →
          ((invocation.loadSettings around).on { directory := d }).1 = .ok settings →
          invocation.command.WritesNothing around.user settings d) →
        (runArguments around arguments d).session.directory = d := by
  constructor
  · intro runs
    induction runs generalizing d with
    | nil => exact .refl d
    | cons run runs ih =>
      exact (growsInto_runArguments run.1 run.2 d).trans (ih _)
  · exact fun around arguments h => directory_runArguments_of_writesNothing h

/-- A folder with a source text and an empty list of symbols. -/
def cartFolder : Directory :=
  ⟨[(["Cart.cs"], .file (Text.encode "public class Cart;")),
    (["Cart.json"], .file (Text.encode "[]"))]⟩

/-- Printing the cart and writing its tests change nothing: there are none. In a folder that is
ready, one run creates the file with the tests and the next one puts more behind them. -/
theorem growsInto_runAll_cartFolder :
    let paths := ["--source", "Cart.cs", "--symbols", "Cart.json"]
    let write := (bareSurroundings, writeArguments)
    (cartFolder.GrowsInto (runAll
        [(bareSurroundings, "parse" :: paths),
          (bareSurroundings, "write" :: "--workspace" :: "." :: paths)] cartFolder)
      ∧ (runArguments bareSurroundings ("parse" :: paths) cartFolder).session.directory
        = cartFolder
      ∧ (runArguments bareSurroundings ("write" :: "--workspace" :: "." :: paths)
          cartFolder).session.directory = cartFolder)
    ∧ freshFolder.GrowsInto (runAll [write, write] freshFolder)
      ∧ freshFolder.lookup? plainLocation = none
      ∧ (runAll [write] freshFolder).lookup? plainLocation = some (.file createdBytes)
      ∧ (runAll [write, write] freshFolder).lookup? plainLocation
        = some (.file (createdBytes ++ appendedBytes)) := by
  intro paths write
  obtain ⟨hgrows, hnothing⟩ := growsInto_runAll cartFolder
  have hparse : Invocation.ofArguments ("parse" :: paths)
      = .ok ⟨.parse ⟨"Cart.cs", "Cart.json"⟩, false, none⟩ := rfl
  have hwrite : Invocation.ofArguments ("write" :: "--workspace" :: "." :: paths)
      = .ok ⟨.write ⟨"Cart.cs", "Cart.json"⟩ ⟨".", none⟩, false, none⟩ := rfl
  have htests : ∀ ignored, cartFolder.HasNoTests ignored ⟨"Cart.cs", "Cart.json"⟩ :=
    fun ignored tests hok => (Except.ok.inj hok).symm
  obtain ⟨_, hcreated⟩ := exists_runArguments_freshFolder
  obtain ⟨_, happended⟩ := exists_runArguments_testedFolder (Text.decode?_encode
    ((Suite.TestClass.plain "A").full plainTarget.settings))
  have hfirst : runAll [write] freshFolder = testedFolder createdBytes := by
    rw [runAll_cons, hcreated]
    rfl
  have hsecond : runAll [write, write] freshFolder
      = testedFolder (createdBytes ++ appendedBytes) := by
    rw [runAll_cons, hcreated, runAll_cons]
    exact congrArg (fun run => run.session.directory) happended
  refine ⟨⟨hgrows _, hnothing _ _ ?_, hnothing _ _ ?_⟩, (growsInto_runAll freshFolder).1 _, rfl,
    by rw [hfirst, lookup?_testedFolder], by rw [hsecond, lookup?_testedFolder]⟩
  · intro invocation settings harguments _
    obtain rfl := Except.ok.inj (hparse.symm.trans harguments)
    exact .parse _
  · intro invocation settings harguments _
    obtain rfl := Except.ok.inj (hwrite.symm.trans harguments)
    refine .noTests fun documents hdocuments => ?_
    obtain rfl := Except.ok.inj hdocuments
    exact List.forall_mem_singleton.mpr (htests _)

end TestScaffold
