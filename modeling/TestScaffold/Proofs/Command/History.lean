import TestScaffold.Proofs.Command.CompleteReport
/-!
# Test classes over many runs

Runs that write are told apart by what they report. A report is read back from the text that
is printed (`reportedIn_reportText`), and what it lists is a part of the journal of its run.
A `Ledger` says what any such list has to do with the directories in front of it and behind
it: a created file was not there before and is there afterwards. Ledgers of runs that follow
one another make one ledger (`Ledger.append`).

So a test class is reported as created at most once for a path, and never under the name that
an appended one has. The reported test classes have distinct paths and names exactly when no
two appended ones have the same (`reported_nodup_iff`). The longer name that an appended test
class gets is the same each time: `appended_twice` is one that is written twice.
-/

namespace TestScaffold

open Json (Restores present listSlot restores_record restores_text)

/-! ## Reports are read back -/

/-- What a word says of a file. -/
def WriteAction.ofWord? : String → Option WriteAction
  | "created" => some .created
  | "appended" => some .appended
  | _ => none

/-- Read the word for what became of a file. -/
def WriteAction.ofJson? (json : Json) : Option WriteAction :=
  json.text?.bind ofWord?

namespace WrittenFile

/-- Read a written test class. -/
def ofJson? : Nat → Json → Option WrittenFile
  | 0, _ => none
  | _ + 1, json => do
    let fields ← json.fields? ["path", "class_name", "action"]
    return ⟨← fields.required? "path" Json.text?, ← fields.required? "class_name" Json.text?,
      ← fields.required? "action" WriteAction.ofJson?⟩

/-- The slots of a written test class. -/
def slots (file : WrittenFile) : List (String × Option Json) :=
  [("path", some (.text file.path)), ("class_name", some (.text file.className)),
    ("action", some (.text file.action.word))]

theorem restores_toJson (file : WrittenFile) : Restores ofJson? file file.toJson := by
  show Restores ofJson? file (.record (present file.slots))
  have haction : Restores (fun _ => WriteAction.ofJson?) file.action (.text file.action.word) :=
    fun _ _ => by cases file.action <;> rfl
  refine restores_record ["path", "class_name", "action"] rfl (by decide)
    fun budget fits hfields => ?_
  have hpath := fits.required "path" (by simp [slots]) (restores_text file.path)
  have hname := fits.required "class_name" (by simp [slots]) (restores_text file.className)
  have haction := fits.required "action" (by simp [slots]) haction
  rw [ofJson?, hfields]
  simp only [Option.bind_eq_bind, Option.bind_some, hpath, hname, haction]
  rfl

end WrittenFile

namespace WriteReport

/-- The names of the fields of a report. -/
def fieldNames : List String :=
  ["project", "namespace", "files", "usings_file", "failures"]

/-- Read the test classes of a report. -/
def filesOfJson? : Nat → Json → Option (List WrittenFile)
  | 0, _ => none
  | budget + 1, json => do
    let fields ← json.fields? fieldNames
    fields.required? "files" (Json.list? WrittenFile.ofJson? budget)

/-- The slots of a report. -/
def slots (report : WriteReport) : List (String × Option Json) :=
  [("project", some (.text report.target.project.name)),
    ("namespace", some (.text (report.target.settings.targetProjectNamespace.getD ""))),
    ("files", some (.array (report.files.map WrittenFile.toJson))),
    ("usings_file", some ((report.usingsFile.map Json.text).getD .null)),
    ("failures", listSlot DocumentFailure.toJson report.failures)]

theorem toJson_eq (report : WriteReport) : report.toJson = .record (present report.slots) := by
  simp only [toJson, Json.field_eq_present, Json.fieldUnlessEmpty_eq_present,
    ← Json.present_append]
  rfl

theorem restores_toJson (report : WriteReport) :
    Restores filesOfJson? report.files report.toJson := by
  rw [toJson_eq]
  refine restores_record fieldNames rfl (by decide) fun budget fits hfields => ?_
  have hfiles := fits.required "files" (by simp [slots])
    (Json.restores_list fun file (_ : file ∈ report.files) => file.restores_toJson)
  rw [filesOfJson?, hfields]
  exact hfiles

theorem written_toJson (report : WriteReport) : Json.Written report.toJson := by
  have husings : Json.Written ((report.usingsFile.map Json.text).getD .null) := by
    cases report.usingsFile with
    | none => exact .scalar .null
    | some path => exact Json.written_text path
  simp [toJson, WrittenFile.toJson, DocumentFailure.toJson, husings]

/-- A report nests three containers at most. -/
theorem nesting_toJson_le (report : WriteReport) : report.toJson.nesting ≤ 3 := by
  have hitems : ∀ {α : Type} (write : α → Json) (xs : List α), (∀ x, (write x).nesting ≤ 1) →
      (Json.array (xs.map write)).nesting ≤ 2 :=
    fun write xs h => Json.nesting_array_le_iff.mpr (List.forall_mem_map.mpr fun x _ => h x)
  rw [toJson_eq]
  refine Json.nesting_record_le_iff.mpr fun (name, value) hmem => ?_
  simp only [Json.mem_present_iff, slots, List.mem_cons, Prod.mk.injEq, Option.some.injEq,
    List.not_mem_nil, or_false] at hmem
  rcases hmem with ⟨-, rfl⟩ | ⟨-, rfl⟩ | ⟨-, rfl⟩ | ⟨-, rfl⟩ | ⟨-, hfailures⟩
  · exact Nat.zero_le _
  · exact Nat.zero_le _
  · exact hitems _ _ fun file => Nat.le_refl 1
  · cases report.usingsFile <;> exact Nat.zero_le _
  · unfold listSlot at hfailures
    split at hfailures
    · cases hfailures
    · rw [Option.some.inj hfailures]
      exact hitems _ _ fun failure => Nat.le_refl 1

end WriteReport

/-- The test classes that an output reports. -/
def reportedIn (output : String) : List WrittenFile :=
  (Json.read? WriteReport.filesOfJson? output).getD []

/-- **The text of a report is read back as the test classes that it lists.** -/
theorem reportedIn_reportText (report : WriteReport) :
    reportedIn (reportText report.toJson) = report.files := by
  unfold reportedIn reportText
  rw [Json.read?_pretty_append report.written_toJson report.restores_toJson
    (report.nesting_toJson_le.trans (by decide))]
  rfl

/-! ## Ledgers -/

namespace Directory

/-- **What test classes that are reported have to do with the directories** in front of them
and behind them, when the ones that are appended get a longer name. -/
structure Ledger (longer : String) (d : Directory) (files : List WrittenFile) (e : Directory) :
    Prop where
  /-- The directory grows. -/
  grows : d.GrowsInto e
  /-- A file is named for its test class, which has a longer name when it is appended. -/
  named : ∀ file ∈ files, ∃ folder own, file.path = joinPath folder (own ++ ".cs")
    ∧ file.className = if file.action = .appended then longer ++ own else own
  /-- A created file was not there before. -/
  hasPath_eq_false : ∀ file ∈ files, file.action = .created → d.hasPath file.path = false
  /-- Every file is there afterwards. -/
  hasPath_eq_true : ∀ file ∈ files, e.hasPath file.path = true
  /-- No file is created that was reported before. -/
  pairwise : files.Pairwise fun earlier later =>
    later.action = .created → earlier.path ≠ later.path

namespace Ledger

variable {longer : String} {d e f : Directory} {files more : List WrittenFile}

theorem nil (h : d.GrowsInto e) : Ledger longer d [] e :=
  ⟨h, by simp, by simp, by simp, .nil⟩

/-- Nothing is lost afterwards. -/
theorem trans (h : Ledger longer d files e) (h' : e.GrowsInto f) : Ledger longer d files f :=
  { h with
    grows := h.grows.trans h'
    hasPath_eq_true := fun file hfile => h'.hasPath_eq (h.hasPath_eq_true file hfile) }

/-- Some of the test classes may be left out. -/
theorem sublist (h : Ledger longer d files e) (hsublist : more.Sublist files) :
    Ledger longer d more e where
  grows := h.grows
  named file hfile := h.named file (hsublist.subset hfile)
  hasPath_eq_false file hfile := h.hasPath_eq_false file (hsublist.subset hfile)
  hasPath_eq_true file hfile := h.hasPath_eq_true file (hsublist.subset hfile)
  pairwise := h.pairwise.sublist hsublist

/-- **Ledgers that follow one another** make one ledger: what is reported first is there when
the rest is written, and so it is not created again. -/
theorem append (h : Ledger longer d files e) (h' : Ledger longer e more f) :
    Ledger longer d (files ++ more) f where
  grows := h.grows.trans h'.grows
  named := List.forall_mem_append.mpr ⟨h.named, h'.named⟩
  hasPath_eq_false := by
    refine List.forall_mem_append.mpr ⟨h.hasPath_eq_false, fun file hfile hcreated => ?_⟩
    refine Bool.eq_false_iff.mpr fun hpath => ?_
    have hthere := h.grows.hasPath_eq hpath
    rw [h'.hasPath_eq_false file hfile hcreated] at hthere
    cases hthere
  hasPath_eq_true := List.forall_mem_append.mpr
    ⟨fun file hfile => h'.grows.hasPath_eq (h.hasPath_eq_true file hfile), h'.hasPath_eq_true⟩
  pairwise := by
    refine List.pairwise_append.mpr ⟨h.pairwise, h'.pairwise,
      fun earlier hearlier later hlater hcreated heq => ?_⟩
    have hthere := h.hasPath_eq_true earlier hearlier
    rw [heq, h'.hasPath_eq_false later hlater hcreated] at hthere
    cases hthere

/-- **The created ones are apart** from all others: the test classes have distinct paths and
names exactly when the appended ones have. -/
theorem nodup_iff (h : Ledger longer d files e) (hne : longer.toList ≠ [])
    (hslash : '/' ∉ longer.toList) :
    (files.map fun file => (file.path, file.className)).Nodup
      ↔ ((files.filter fun file => file.action = .appended).map
        fun file => (file.path, file.className)).Nodup := by
  refine ⟨fun hnodup => hnodup.sublist (List.filter_sublist.map _), fun hnodup => ?_⟩
  rw [List.Nodup, List.pairwise_map, List.pairwise_filter] at hnodup
  refine List.pairwise_map.mpr ((h.pairwise.and hnodup).imp_of_mem ?_)
  rintro a b ha hb ⟨hcreated, happended⟩ heq
  obtain ⟨hpath, hname⟩ := Prod.mk.inj heq
  have hlater : b.action = .appended := by
    cases haction : b.action with
    | created => exact absurd hpath (hcreated haction)
    | appended => rfl
  have hearlier : a.action = .created := by
    cases haction : a.action with
    | created => rfl
    | appended => exact absurd heq (happended (by simpa using haction) (by simpa using hlater))
  -- the name of a created file holds no longer name of another one
  obtain ⟨folder, own, hown, hclass⟩ := h.named a ha
  obtain ⟨folder', own', hown', hclass'⟩ := h.named b hb
  rw [if_neg (by simp [hearlier])] at hclass
  rw [if_pos hlater] at hclass'
  rw [hown, hown', ← hclass, hname, hclass', String.append_assoc] at hpath
  exact joinPath_append_ne hne hslash _ _ _ hpath

end Ledger

variable {d e : Directory} {folder : String} {settings : GenerateSettings}
  {file : WrittenFile} {files : List WrittenFile}

/-- A test class that is put into a folder makes a ledger. -/
theorem Puts.ledger {c : Class} (h : d.Puts folder settings (.ofClass c) file e) :
    Ledger settings.testClassNamePrefixIfFileExists d [file] e := by
  have hgrows := h.growsInto
  cases h with
  | @created location hat hnone =>
    have hfolder : d.lookup? location ≠ some .folder := by simp [hnone]
    have hafter : FileAt _ (joinPath folder (Suite.TestClass.ofClass c).fileName) location :=
      hgrows.folders.fileAt_iff.mpr hat
    refine ⟨hgrows, ?_, ?_, ?_, List.pairwise_singleton ..⟩ <;>
      refine List.forall_mem_singleton.mpr ?_
    · exact ⟨folder, c.name ++ "Tests", rfl, rfl⟩
    · rw [hat.hasPath_eq, hnone]
      exact fun _ => rfl
    · rw [hafter.hasPath_eq, lookup?_set _ _ _ (ne_nil_of_lookup? hfolder), if_pos rfl]
      rfl
  | @appended location bytes old hat hfile hdecode =>
    refine ⟨hgrows, ?_, ?_, ?_, List.pairwise_singleton ..⟩ <;>
      refine List.forall_mem_singleton.mpr ?_
    · exact ⟨folder, c.name ++ "Tests", rfl, rfl⟩
    · exact fun hcreated => nomatch hcreated
    · exact hgrows.hasPath_eq (by rw [hat.hasPath_eq, hfile]; rfl)

/-- **A journal makes a ledger.** -/
theorem Journal.ledger (h : Journal folder settings d files e) :
    Ledger settings.testClassNamePrefixIfFileExists d files e := by
  induction h with
  | nil d => exact .nil (.refl d)
  | cons head _ ih => exact head.ledger.append ih

end Directory

/-! ## Runs -/

section

variable {quiet : Bool} {user : UserFolders} {settings : Settings} {options : TargetOptions}
  {s t : Session} {output : String}

/-- The longer names are those of the settings, whatever the project is. -/
theorem longer_of_resolveTarget {settings : GenerateSettings} {target : Target}
    (h : ((resolveTarget quiet user settings options).on s).1 = .ok (some target)) :
    target.settings.testClassNamePrefixIfFileExists
      = settings.testClassNamePrefixIfFileExists := by
  unfold resolveTarget at h
  rw [Task.on_bind_ok (Task.on_get s)] at h
  split at h
  · cases h
  split at h
  · cases h
    dsimp only
    unfold GenerateSettings.forProject
    split <;> rfl
  · obtain ⟨notices, hnotice⟩ := Task.exists_on_notice quiet
      (options.workspace ++ ": no test project found") s
    rw [Task.on_bind_ok hnotice] at h
    cases h

/-- **Writing a document makes a ledger** of what is reported. -/
theorem ledger_runWrite {document : DocumentPaths}
    (h : (runWrite quiet user settings document options).on s = (.ok output, t)) :
    s.directory.Ledger settings.generate.testClassNamePrefixIfFileExists (reportedIn output)
      t.directory := by
  have hkeeps := keeps_resolveTarget quiet user settings.generate options s
  unfold runWrite at h
  rcases htarget : (resolveTarget quiet user settings.generate options).on s
    with ⟨error | _ | target, u⟩ <;> rw [htarget] at hkeeps
  · rw [Task.on_bind_error htarget] at h
    cases h
  · rw [Task.on_bind_ok htarget] at h
    cases h
    exact .nil (hkeeps ▸ .refl _)
  rw [Task.on_bind_ok htarget] at h
  rw [hkeeps, ← longer_of_resolveTarget (congrArg Prod.fst htarget)]
  obtain ⟨hjournal, hfiles⟩ :=
    journal_writtenOf quiet settings.parse.methodNamesToIgnore target document u
  dsimp only at h
  rcases hdocument : (writeDocument quiet settings.parse.methodNamesToIgnore target document).on u
    with ⟨error | files, v⟩ <;> rw [hdocument] at hjournal hfiles
  · rw [Task.on_bind_error hdocument] at h
    cases h
  rw [Task.on_bind_ok hdocument] at h
  rw [← hfiles files rfl] at hjournal
  split at h
  · cases h
    exact .nil hjournal.growsInto
  have hgrows := keeps_usingsAfter target files v
  rcases husings : (usingsAfter target files).on v with ⟨error | usingsFile, w⟩ <;>
    rw [husings] at hgrows
  · rw [Task.on_bind_error husings] at h
    cases h
  · rw [Task.on_bind_ok husings] at h
    obtain ⟨houtput, rfl⟩ := Prod.mk.inj h
    rw [← Except.ok.inj houtput, reportedIn_reportText]
    exact hjournal.ledger.trans hgrows

/-- **Writing a manifest makes a ledger** of what is reported. -/
theorem ledger_runWriteProject {manifest : String}
    (h : (runWriteProject quiet user settings manifest options).on s = (.ok output, t)) :
    s.directory.Ledger settings.generate.testClassNamePrefixIfFileExists (reportedIn output)
      t.directory := by
  obtain ⟨documents, hmanifest⟩ := exists_on_readManifest manifest s.directory
  have hmanifest := hmanifest s rfl
  have hkeeps := keeps_resolveTarget quiet user settings.generate options s
  unfold runWriteProject at h
  cases documents with
  | error error =>
    rw [Task.on_bind_error hmanifest] at h
    cases h
  | ok documents =>
  rw [Task.on_bind_ok hmanifest] at h
  rcases htarget : (resolveTarget quiet user settings.generate options).on s
    with ⟨error | _ | target, u⟩ <;> rw [htarget] at hkeeps
  · rw [Task.on_bind_error htarget] at h
    cases h
  · rw [Task.on_bind_ok htarget] at h
    cases h
    exact .nil (hkeeps ▸ .refl _)
  rw [Task.on_bind_ok htarget] at h
  rw [hkeeps, ← longer_of_resolveTarget (congrArg Prod.fst htarget)]
  have hjournal := journal_writtenEach quiet settings.parse.methodNamesToIgnore target documents u
  dsimp only at h
  rcases hreport : (writeDocuments quiet settings.parse.methodNamesToIgnore target documents).on u
    with ⟨error | report, v⟩
  · rw [Task.on_bind_error hreport] at h
    cases h
  rw [Task.on_bind_ok hreport] at h
  obtain ⟨houtput, rfl⟩ := Prod.mk.inj h
  rw [← Except.ok.inj houtput, reportedIn_reportText]
  obtain ⟨-, hsublist, hfinal, -⟩ := complete_writeDocuments_iff hreport
  rw [hfinal]
  exact (hjournal.ledger.sublist hsublist).trans
    (Directory.growsInto_withUsingsAfter _ target report.files)

end

/-! ## Histories -/

/-- **A run writes with some settings**: its command line comes to a command that writes, it
loads these settings, and it ends well. -/
structure WritesWith (settings : Settings) (around : Surroundings) (arguments : List String)
    (d : Directory) : Prop where
  /-- It writes, and with these settings. -/
  asked : ∃ invocation, Invocation.ofArguments arguments = .ok invocation
    ∧ invocation.command.options?.isSome = true
    ∧ Settings.load d (Settings.withEnvironmentFile d around.environment)
      around.user.settingsFile invocation.config = .ok settings
  /-- It ends well. -/
  exitCode_eq : (runArguments around arguments d).ending.exitCode = 0

/-- **Runs that write**, one after another, and the test classes that they report. -/
inductive WriteHistory (settings : Settings) :
    Directory → List WrittenFile → Directory → Prop
  /-- Nothing is run. -/
  | nil (d : Directory) : WriteHistory settings d [] d
  /-- One run goes in front of the others. -/
  | cons {d e : Directory} {around : Surroundings} {arguments : List String}
    {files : List WrittenFile} (head : WritesWith settings around arguments d)
    (tail : WriteHistory settings (runArguments around arguments d).session.directory files e) :
    WriteHistory settings d (reportedIn (runArguments around arguments d).output ++ files) e

section

variable {settings : Settings} {around : Surroundings} {arguments : List String}
  {d e : Directory} {files : List WrittenFile}

/-- **A run that writes makes a ledger** of what it reports. -/
theorem WritesWith.ledger (h : WritesWith settings around arguments d) :
    d.Ledger settings.generate.testClassNamePrefixIfFileExists
      (reportedIn (runArguments around arguments d).output)
      (runArguments around arguments d).session.directory := by
  obtain ⟨⟨command, quiet, config⟩, harguments, hwrites, hsettings⟩ := h.asked
  obtain ⟨output, session, hon, hrun⟩ :=
    exists_on_of_exitCode_eq_zero harguments hsettings h.exitCode_eq
  rw [hrun]
  cases command with
  | parse document => cases hwrites
  | generate document bare => cases hwrites
  | write document options => exact ledger_runWrite (s := { directory := d }) hon
  | writeProject manifest options => exact ledger_runWriteProject (s := { directory := d }) hon

/-- **Runs that write make a ledger** of what they report, one run after another. -/
theorem WriteHistory.ledger (h : WriteHistory settings d files e) :
    d.Ledger settings.generate.testClassNamePrefixIfFileExists files e := by
  induction h with
  | nil d => exact .nil (.refl d)
  | cons head _ ih => exact head.ledger.append ih

/-- A valid prefix makes a name longer and holds no slash. -/
theorem GenerateSettings.longer_of_invalid?_eq_none {settings : GenerateSettings}
    (h : settings.invalid? = none) :
    settings.testClassNamePrefixIfFileExists.toList ≠ []
      ∧ '/' ∉ settings.testClassNamePrefixIfFileExists.toList := by
  unfold invalid? at h
  dsimp only at h
  split at h
  · cases h
  split at h
  · cases h
  split at h
  · cases h
  rename_i hvalid
  rw [Bool.or_eq_true_iff, not_or, List.isEmpty_iff, Bool.not_eq_true', Bool.not_eq_false,
    List.all_eq_true] at hvalid
  have hchar : isPrefixChar '/' = false := by decide +kernel
  exact ⟨hvalid.1, fun hslash => by simp [hvalid.2 '/' hslash] at hchar⟩

end

/-- **The reported test classes have distinct paths and names exactly when the appended ones
have.** Over any runs that write with the same settings, a file is reported as created at most
once, when it was not there in the beginning; and no test class that is reported as appended
has the path and the name of a created one. -/
theorem reported_nodup_iff {settings : Settings} {d e : Directory} {files : List WrittenFile}
    (h : WriteHistory settings d files e) :
    (∀ file ∈ files, file.action = .created → d.hasPath file.path = false)
      ∧ ((files.filter fun file => file.action = .created).map WrittenFile.path).Nodup
      ∧ ((files.map fun file => (file.path, file.className)).Nodup
        ↔ ((files.filter fun file => file.action = .appended).map
          fun file => (file.path, file.className)).Nodup) := by
  have hledger := h.ledger
  refine ⟨hledger.hasPath_eq_false, ?_, ?_⟩
  · rw [List.Nodup, List.pairwise_map, List.pairwise_filter]
    exact hledger.pairwise.imp fun hcreated _ hlater => hcreated (by simpa using hlater)
  · cases h with
    | nil => simp
    | cons head _ =>
      obtain ⟨invocation, -, -, hsettings⟩ := head.asked
      obtain ⟨hne, hslash⟩ := GenerateSettings.longer_of_invalid?_eq_none
        (Settings.invalid?_eq_none_of_load hsettings)
      exact hledger.nodup_iff hne hslash

/-! ## A class that is tested already -/

/-- A run in the tested folder appends the tests of `A`, whether it did so before or not. -/
theorem writesWith_testedFolder {bytes : List UInt8} {old : String}
    (hdecode : Text.decode? bytes = some old) :
    WritesWith {} bareSurroundings writeArguments (testedFolder bytes)
      ∧ reportedIn (runArguments bareSurroundings writeArguments (testedFolder bytes)).output
        = [⟨"./T/ATests.cs", "DdtATests", .appended⟩]
      ∧ (runArguments bareSurroundings writeArguments (testedFolder bytes)).session.directory
        = testedFolder (bytes ++ appendedBytes) := by
  obtain ⟨notices, hrun⟩ := exists_runArguments_testedFolder hdecode
  refine ⟨⟨⟨_, rfl, rfl, (isReady_testedFolder bytes).settings⟩, by rw [hrun]; rfl⟩, ?_,
    by rw [hrun]⟩
  rw [hrun, Run.output, reportedIn_reportText]

/-- There is no text in an empty file. -/
theorem decode?_nil : Text.decode? [] = some "" :=
  rfl

/-- One run in this folder appends the tests of `A`, and no two of its test classes have the
same path and name. -/
theorem reported_nodup_iff_testedFolder :
    WriteHistory {} (testedFolder []) [⟨"./T/ATests.cs", "DdtATests", .appended⟩]
        (testedFolder appendedBytes)
      ∧ ([(⟨"./T/ATests.cs", "DdtATests", .appended⟩ : WrittenFile)].map
        fun file => (file.path, file.className)).Nodup := by
  obtain ⟨hwrites, hreported, hdirectory⟩ := writesWith_testedFolder decode?_nil
  have hhistory := WriteHistory.cons hwrites (.nil _)
  rw [hreported, hdirectory] at hhistory
  exact ⟨hhistory, (reported_nodup_iff hhistory).2.2.mpr (by decide)⟩

/-- **A test class is written twice into a file** when a run appends it and the next one does
so again: the longer name is the same both times. -/
theorem appended_twice :
    ∃ d files e, WriteHistory {} d files e
      ∧ files = [⟨"./T/ATests.cs", "DdtATests", .appended⟩,
        ⟨"./T/ATests.cs", "DdtATests", .appended⟩]
      ∧ ¬(files.map fun file => (file.path, file.className)).Nodup := by
  obtain ⟨hfirst, hreported, hdirectory⟩ := writesWith_testedFolder decode?_nil
  obtain ⟨hsecond, hreported', -⟩ := writesWith_testedFolder (Text.decode?_encode
    ("\n\n" ++ ((Suite.TestClass.plain "A").withPrefix "Ddt").bare plainTarget.settings))
  have htail := WriteHistory.cons hsecond (.nil _)
  rw [hreported'] at htail
  have hhistory := WriteHistory.cons hfirst (by rw [hdirectory]; exact htail)
  rw [hreported] at hhistory
  exact ⟨_, _, _, hhistory, rfl, by decide⟩

end TestScaffold
