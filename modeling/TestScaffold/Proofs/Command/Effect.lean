import TestScaffold.Proofs.Command.FreshFiles
/-!
# The effect of writing test classes

Classes of one name share a file, so what becomes of a test class depends on those in front of
it: the first one makes the file, and the next ones are put behind its text. The effect of
writing test classes is said here without that history, by the directory that they are written
into alone (`Effect`). A location that holds a text or nothing (`Holds`) holds behind them what
the test classes that are written there make of it (`textBehind`), and all other locations are as
before.

The effect is that of a run (`on_writeTestClasses_accepted`) when a test class may be written at
each path. Otherwise the run fails at the first path at which none may, and leaves the effect of
the test classes in front (`on_writeTestClasses_failed`).
-/

namespace TestScaffold

/-! ## Texts at locations -/

namespace Directory

variable {d e : Directory} {path : String} {location : Location} {text? : Option String}

instance (d : Directory) (path : String) (location : Location) :
    Decidable (d.FileAt path location) :=
  inferInstanceAs (Decidable (_ ∧ _))

/-- **What a location holds**: the file of a text, or nothing. -/
def Holds (d : Directory) (location : Location) (text? : Option String) : Prop :=
  d.lookup? location = text?.map fun text => .file (Text.encode text)

/-- A location holds a text or nothing, unless no test class can be written there. -/
theorem unwritable_or_holds (d : Directory) (location : Location) :
    d.Unwritable location ∨ ∃ text?, d.Holds location text? := by
  cases hentry : d.lookup? location with
  | none => exact .inr ⟨none, hentry⟩
  | some entry =>
    cases entry with
    | folder => exact .inl (.inl hentry)
    | file bytes =>
      cases hdecode : Text.decode? bytes with
      | none => exact .inl (.inr ⟨bytes, hentry, hdecode⟩)
      | some text =>
        exact .inr ⟨some text, by rw [Holds, hentry, Option.map_some,
          Text.encode_of_decode? hdecode]⟩

theorem Holds.not_unwritable (h : d.Holds location text?) : ¬d.Unwritable location := by
  rintro (hfolder | ⟨bytes, hfile, hdecode⟩)
  · cases text? <;> cases h.symm.trans hfolder
  · cases text? with
    | none => cases h.symm.trans hfile
    | some text =>
      cases h.symm.trans hfile
      rw [Text.decode?_encode] at hdecode
      cases hdecode

/-- A location holds one text at most. -/
theorem Holds.unique {other? : Option String} (h : d.Holds location text?)
    (h' : d.Holds location other?) : text? = other? := by
  have hinjective : Function.Injective fun text => Entry.file (Text.encode text) := by
    intro a b heq
    have hdecode := congrArg Text.decode? (Entry.file.inj heq)
    rw [Text.decode?_encode, Text.decode?_encode] at hdecode
    exact Option.some.inj hdecode
  exact Option.map_injective hinjective (h.symm.trans h')

theorem Holds.ne_folder (h : d.Holds location text?) : d.lookup? location ≠ some .folder :=
  fun hfolder => h.not_unwritable (.inl hfolder)

/-- A location of a path is that of a text when the text is read at the path. -/
theorem FileAt.holds_some_iff {text : String} (hat : d.FileAt path location) :
    d.Holds location (some text) ↔ d.readText path = .ok text := by
  rw [readText_eq_ok_iff]
  constructor
  · exact fun h => ⟨location, _, hat, h, Text.decode?_encode text⟩
  · rintro ⟨other, bytes, hother, hfile, hdecode⟩
    rw [Holds, ← hat.unique hother, hfile, Option.map_some, Text.encode_of_decode? hdecode]

/-- A location of a path is empty when nothing is at the path. -/
theorem FileAt.holds_none_iff (hat : d.FileAt path location) :
    d.Holds location none ↔ d.hasPath path = false := by
  rw [hat.hasPath_eq, Option.isSome_eq_false_iff, Option.isNone_iff_eq_none]
  exact Iff.rfl

/-- **A test class may be written at a path**: it is the path of a file, and there is a text or
nothing. -/
def Accepts (d : Directory) (path : String) : Prop :=
  ∃ location text?, d.FileAt path location ∧ d.Holds location text?

/-- The paths at which a test class may be written, by what they mean. -/
theorem accepts_iff :
    d.Accepts path ↔ (d.hasPath path = false ∧ ∃ location, d.FileAt path location)
      ∨ ∃ text, d.readText path = .ok text := by
  constructor
  · rintro ⟨location, text?, hat, hholds⟩
    cases text? with
    | none => exact .inl ⟨hat.holds_none_iff.mp hholds, location, hat⟩
    | some text => exact .inr ⟨text, hat.holds_some_iff.mp hholds⟩
  · rintro (⟨hpath, location, hat⟩ | ⟨text, hread⟩)
    · exact ⟨location, none, hat, hat.holds_none_iff.mpr hpath⟩
    · obtain ⟨location, -, hat, -⟩ := readText_eq_ok_iff.mp hread
      exact ⟨location, some text, hat, hat.holds_some_iff.mpr hread⟩

theorem unwritable_of_not_accepts (h : ¬d.Accepts path) (hat : d.FileAt path location) :
    d.Unwritable location :=
  (d.unwritable_or_holds location).resolve_right fun ⟨text?, hholds⟩ =>
    h ⟨location, text?, hat, hholds⟩

end Directory

/-! ## One test class -/

section

variable (settings : GenerateSettings)

/-- What is put behind the text of a file for a test class. -/
def appendix (t : Suite.TestClass) : String :=
  "\n\n" ++ (t.withPrefix settings.testClassNamePrefixIfFileExists).bare settings

/-- The text of a file behind a test class that is written into it, by its text before. -/
def textWith (text? : Option String) (t : Suite.TestClass) : String :=
  match text? with
  | none => t.full settings
  | some text => text ++ appendix settings t

/-- The text of a file behind test classes that are written into it in order. -/
def textBehind (text? : Option String) (tests : List Suite.TestClass) : Option String :=
  tests.foldl (fun text? t => some (textWith settings text? t)) text?

/-- **A file that is there** gets all test classes behind its text. -/
theorem textBehind_some (text : String) (tests : List Suite.TestClass) :
    textBehind settings (some text) tests
      = some (text ++ String.join (tests.map (appendix settings))) := by
  induction tests generalizing text with
  | nil => simp [textBehind]
  | cons t tests ih =>
    rw [List.map_cons, String.join_cons, ← String.append_assoc, ← ih]
    rfl

/-- **A new file** holds the first test class in full and the others behind it. -/
theorem textBehind_none_cons (t : Suite.TestClass) (tests : List Suite.TestClass) :
    textBehind settings none (t :: tests)
      = some (t.full settings ++ String.join (tests.map (appendix settings))) :=
  textBehind_some settings (t.full settings) tests

theorem textBehind_append (text? : Option String) (before after : List Suite.TestClass) :
    textBehind settings text? (before ++ after)
      = textBehind settings (textBehind settings text? before) after :=
  List.foldl_append

/-- What is reported for a test class: its file is new, or it was there. -/
def writtenAs (path : String) (present : Bool) (t : Suite.TestClass) : WrittenFile :=
  if present then
    ⟨path, (t.withPrefix settings.testClassNamePrefixIfFileExists).name, .appended⟩
  else ⟨path, t.name, .created⟩

end

section

variable {folder : String} {settings : GenerateSettings} {t : Suite.TestClass} {s : Session}
  {location : Location} {text? : Option String}

/-- **A test class is written at a location** that holds a text or nothing. -/
theorem on_writeTestClass_of_holds
    (hat : s.directory.FileAt (joinPath folder t.fileName) location)
    (h : s.directory.Holds location text?) :
    (writeTestClass folder settings t).on s
      = (.ok (writtenAs settings (joinPath folder t.fileName)
          (s.directory.hasPath (joinPath folder t.fileName)) t),
        { s with directory :=
          s.directory.set location (.file (Text.encode (textWith settings text? t))) }) := by
  cases text? with
  | none =>
    rw [on_writeTestClass_created hat h, hat.holds_none_iff.mp h]
    rfl
  | some text =>
    have hpath : s.directory.hasPath (joinPath folder t.fileName) = true := by
      rw [hat.hasPath_eq, h]
      rfl
    rw [on_writeTestClass_appended hat h (Text.decode?_encode text), hpath, ← Text.encode_append]
    rfl

/-- A test class that is not written is refused for its file. -/
theorem error_on_writeTestClass {error : CommandError}
    (h : ((writeTestClass folder settings t).on s).1 = .error error) :
    ∃ task cause, error = .file task (joinPath folder t.fileName) cause := by
  unfold writeTestClass at h
  dsimp only at h
  rw [Task.on_bind_ok (Task.on_hasPath ..)] at h
  split at h
  · cases hread : s.directory.readText (joinPath folder t.fileName) with
    | error cause =>
      rw [Task.on_bind_error (by rw [Task.on_readText, hread]; rfl)] at h
      exact ⟨_, _, (Except.error.inj h).symm⟩
    | ok old =>
      rw [Task.on_bind_ok (by rw [Task.on_readText, hread]; rfl)] at h
      cases hwrite : s.directory.write (joinPath folder t.fileName) (old ++ "\n\n"
          ++ (t.withPrefix settings.testClassNamePrefixIfFileExists).bare settings) with
      | error cause =>
        rw [Task.on_bind_error (by rw [Task.on_writeText, hwrite])] at h
        exact ⟨_, _, (Except.error.inj h).symm⟩
      | ok e =>
        rw [Task.on_bind_ok (by rw [Task.on_writeText, hwrite])] at h
        cases h
  · cases hwrite : s.directory.write (joinPath folder t.fileName) (t.full settings) with
    | error cause =>
      rw [Task.on_bind_error (by rw [Task.on_writeText, hwrite])] at h
      exact ⟨_, _, (Except.error.inj h).symm⟩
    | ok e =>
      rw [Task.on_bind_ok (by rw [Task.on_writeText, hwrite])] at h
      cases h

end

/-! ## Many test classes -/

/-- **The effect of test classes on a directory.** -/
structure Effect (folder : String) (settings : GenerateSettings) (d : Directory)
    (tests : List Suite.TestClass) (e : Directory) : Prop where
  /-- The folders stay. -/
  folders : d.SameFolders e
  /-- A location that holds a text or nothing holds what the test classes make of it that are
  written there. -/
  holds : ∀ location text?, d.Holds location text? →
    e.Holds location (textBehind settings text?
      (tests.filter fun t => d.FileAt (joinPath folder t.fileName) location))
  /-- A location where no test class is written is as before. -/
  others : ∀ location, (∀ t ∈ tests, ¬d.FileAt (joinPath folder t.fileName) location) →
    e.lookup? location = d.lookup? location

section

variable {folder : String} {settings : GenerateSettings} {d e f : Directory}
  {tests before after : List Suite.TestClass} {t : Suite.TestClass} {s u : Session}
  {location : Location} {text? : Option String}

theorem Effect.nil (folder : String) (settings : GenerateSettings) (d : Directory) :
    Effect folder settings d [] d :=
  ⟨.refl d, fun _ _ h => h, fun _ _ => rfl⟩

/-- **One test class** is written at its location. -/
theorem effect_singleton (hat : d.FileAt (joinPath folder t.fileName) location)
    (hholds : d.Holds location text?) :
    Effect folder settings d [t]
      (d.set location (.file (Text.encode (textWith settings text? t)))) := by
  have hset := fun other => d.lookup?_set other
    (.file (Text.encode (textWith settings text? t))) (Directory.ne_nil_of_lookup? hholds.ne_folder)
  refine ⟨Directory.sameFolders_set hholds.ne_folder _, fun other old? hold => ?_,
    fun other hother => ?_⟩
  · rw [List.filter_singleton, Directory.Holds, hset]
    by_cases heq : other = location
    · obtain rfl := heq
      obtain rfl := hholds.unique hold
      rw [if_pos rfl, decide_eq_true hat]
      rfl
    · have hnot : ¬d.FileAt (joinPath folder t.fileName) other := fun h => heq (hat.unique h)
      rw [if_neg heq, decide_eq_false hnot]
      exact hold
  · have hne : other ≠ location := fun heq => List.forall_mem_singleton.mp hother (heq ▸ hat)
    rw [hset, if_neg hne]

/-- **Effects add up.** -/
theorem Effect.append (h : Effect folder settings d before e)
    (h' : Effect folder settings e after f) : Effect folder settings d (before ++ after) f := by
  refine ⟨h.folders.trans h'.folders, fun location text? hholds => ?_, fun location hother => ?_⟩
  · have hlast := h'.holds location _ (h.holds location text? hholds)
    simp only [h.folders.fileAt_iff] at hlast
    rw [List.filter_append, textBehind_append]
    exact hlast
  · obtain ⟨hbefore, hafter⟩ := List.forall_mem_append.mp hother
    rw [h'.others location fun t ht => mt h.folders.fileAt_iff.mp (hafter t ht),
      h.others location hbefore]

/-- **Which paths are accepted does not depend on test classes in front** that are written. -/
theorem Effect.accepts_iff (h : Effect folder settings d tests e)
    (htests : ∀ t ∈ tests, d.Accepts (joinPath folder t.fileName)) {path : String} :
    e.Accepts path ↔ d.Accepts path := by
  constructor
  · rintro ⟨location, text?, hat, hholds⟩
    have hat' := h.folders.fileAt_iff.mp hat
    by_contra hnot
    have hunwritable := Directory.unwritable_of_not_accepts hnot hat'
    -- none of the test classes is written where none may be
    have hother : ∀ t ∈ tests, ¬d.FileAt (joinPath folder t.fileName) location := by
      intro t ht hfile
      obtain ⟨other, old?, hother, hold⟩ := htests t ht
      rw [hfile.unique hother] at hold
      exact hold.not_unwritable hunwritable
    have hsame : d.Holds location text? := (h.others location hother).symm.trans hholds
    exact hsame.not_unwritable hunwritable
  · rintro ⟨location, text?, hat, hholds⟩
    exact ⟨location, _, h.folders.fileAt_iff.mpr hat, h.holds location text? hholds⟩

/-- A test class that may be written is written. -/
theorem exists_effect_of_accepts (h : s.directory.Accepts (joinPath folder t.fileName)) :
    ∃ e, (writeTestClass folder settings t).on s
        = (.ok (writtenAs settings (joinPath folder t.fileName)
            (s.directory.hasPath (joinPath folder t.fileName)) t), { s with directory := e })
      ∧ Effect folder settings s.directory [t] e := by
  obtain ⟨location, text?, hat, hholds⟩ := h
  exact ⟨_, on_writeTestClass_of_holds hat hholds, effect_singleton hat hholds⟩

/-- A test class that is written leads to those behind it. -/
theorem on_writeTestClasses_cons {file : WrittenFile}
    (h : (writeTestClass folder settings t).on s = (.ok file, u)) :
    (writeTestClasses folder settings (t :: tests)).on s
      = (((writeTestClasses folder settings tests).on u).1.map (file :: ·),
        ((writeTestClasses folder settings tests).on u).2) := by
  rw [writeTestClasses, Task.on_bind_ok h, Task.on_bind]
  generalize (writeTestClasses folder settings tests).on u = outcome
  obtain ⟨_ | files, v⟩ := outcome <;> rfl

/-- **Test classes that may be written are written**, in order. -/
theorem on_writeTestClasses_accepted
    (h : ∀ t ∈ tests, s.directory.Accepts (joinPath folder t.fileName)) :
    ∃ e, (writeTestClasses folder settings tests).on s
        = (.ok (tests.mapIdx fun i t => writtenAs settings (joinPath folder t.fileName)
            (((writeTestClasses folder settings (tests.take i)).on s).2.directory.hasPath
              (joinPath folder t.fileName)) t), { s with directory := e })
      ∧ Effect folder settings s.directory tests e := by
  induction tests generalizing s with
  | nil => exact ⟨s.directory, rfl, .nil folder settings s.directory⟩
  | cons t tests ih =>
    obtain ⟨hfirst, hrest⟩ := List.forall_mem_cons.mp h
    obtain ⟨d, hon, heffect⟩ : ∃ d, (writeTestClass folder settings t).on s = _ ∧ _ :=
      exists_effect_of_accepts hfirst
    have haccepted : ∀ other ∈ tests, d.Accepts (joinPath folder other.fileName) :=
      fun other hother =>
        (heffect.accepts_iff (List.forall_mem_singleton.mpr hfirst)).mpr (hrest other hother)
    obtain ⟨e, hons, heffects⟩ := ih (s := { s with directory := d }) haccepted
    refine ⟨e, ?_, heffect.append heffects⟩
    rw [on_writeTestClasses_cons hon, hons, List.mapIdx_cons]
    simp only [List.take_succ_cons, on_writeTestClasses_cons hon]
    rfl

/-- **The first test class that may not be written ends the work**: the effect is that of those
in front. -/
theorem on_writeTestClasses_failed
    (hbefore : ∀ t ∈ before, s.directory.Accepts (joinPath folder t.fileName))
    (ht : ¬s.directory.Accepts (joinPath folder t.fileName)) :
    ∃ task cause, (writeTestClasses folder settings (before ++ t :: after)).on s
      = (.error (.file task (joinPath folder t.fileName) cause),
        ((writeTestClasses folder settings before).on s).2) := by
  induction before generalizing s with
  | nil =>
    obtain ⟨error, hon⟩ : ∃ error, (writeTestClass folder settings t).on s = (.error error, s) :=
      exists_on_writeTestClass_failed fun location => Directory.unwritable_of_not_accepts ht
    obtain ⟨task, cause, rfl⟩ := error_on_writeTestClass (congrArg Prod.fst hon)
    have hfirst : (writeTestClasses folder settings (t :: after)).on s
        = (.error (.file task (joinPath folder t.fileName) cause), s) :=
      Task.on_bind_error hon _
    exact ⟨task, cause, hfirst⟩
  | cons first before ih =>
    obtain ⟨hfirst, hrest⟩ := List.forall_mem_cons.mp hbefore
    obtain ⟨d, hon, heffect⟩ : ∃ d, (writeTestClass folder settings first).on s = _ ∧ _ :=
      exists_effect_of_accepts hfirst
    have haccepts : ∀ {path}, d.Accepts path ↔ s.directory.Accepts path :=
      heffect.accepts_iff (List.forall_mem_singleton.mpr hfirst)
    obtain ⟨task, cause, hons⟩ := ih (s := { s with directory := d })
      (fun other hother => haccepts.mpr (hrest other hother)) (mt haccepts.mp ht)
    refine ⟨task, cause, ?_⟩
    rw [List.cons_append, on_writeTestClasses_cons hon, hons, on_writeTestClasses_cons hon]
    rfl

end

/-! ## The effect at paths -/

section

variable {folder : String} {settings : GenerateSettings} {d e : Directory}
  {tests : List Suite.TestClass} {path : String}

/-- The test classes of the file of a path are those at its location. -/
theorem filter_sameFile {location : Location} (hat : d.FileAt path location) :
    (tests.filter fun t => d.SameFile path (joinPath folder t.fileName))
      = tests.filter fun t => d.FileAt (joinPath folder t.fileName) location := by
  refine List.filter_congr fun t _ => decide_eq_decide.mpr ⟨?_, fun h => ⟨location, hat, h⟩⟩
  rintro ⟨other, hother, hfile⟩
  exact hat.unique hother ▸ hfile

/-- **A text that is there** gets the test classes behind it that are written to its path. -/
theorem Effect.readText_of_readText (h : Effect folder settings d tests e) {text : String}
    (hread : d.readText path = .ok text) :
    e.readText path = .ok (text ++ String.join
      ((tests.filter fun t => d.SameFile path (joinPath folder t.fileName)).map
        (appendix settings))) := by
  obtain ⟨location, -, hat, -⟩ := Directory.readText_eq_ok_iff.mp hread
  have hholds := h.holds location _ (hat.holds_some_iff.mpr hread)
  rw [textBehind_some, ← filter_sameFile hat] at hholds
  exact (h.folders.fileAt_iff.mpr hat).holds_some_iff.mp hholds

/-- **A new file** holds the first test class in full that is written to its path, and the
others behind it. -/
theorem Effect.readText_of_hasPath_eq_false (h : Effect folder settings d tests e)
    (hpath : d.hasPath path = false) {t : Suite.TestClass} {rest : List Suite.TestClass}
    (hfilter : (tests.filter fun t => d.SameFile path (joinPath folder t.fileName)) = t :: rest) :
    e.readText path
      = .ok (t.full settings ++ String.join (rest.map (appendix settings))) := by
  have hmem : t ∈ tests.filter fun t => d.SameFile path (joinPath folder t.fileName) :=
    hfilter ▸ List.mem_cons_self
  obtain ⟨location, hat, -⟩ := of_decide_eq_true (List.mem_filter.mp hmem).2
  have hholds := h.holds location _ (hat.holds_none_iff.mpr hpath)
  rw [← filter_sameFile hat, hfilter, textBehind_none_cons] at hholds
  exact (h.folders.fileAt_iff.mpr hat).holds_some_iff.mp hholds

end

/-- **The exact effect of writing test classes.** A test class is accepted when its path means
nothing and is one of a file that may be made, or when a text is read there. In a folder that is
there, a name that is a single step may be made exactly when the file system takes it.

When all test classes are accepted, each of them is written, in order: one whose path means
nothing at that moment into a new file, and one whose path means something then behind the text,
under the longer name. A text that was there before has the test classes behind it that are
written to its path, bare and with two line feeds in front of each; a new file holds the first
one of its test classes in full and the others behind it in the same way. All other locations
are as before.

Otherwise the first test class that is not accepted ends the work with an error that names its
path, and the session is as after writing the test classes in front of it: a write that fails
leaves the file as it was (`Directory.write`). Nothing outside the directory is a place to
write, neither by an absolute path nor by one that climbs above it (`Directory.checkPath`). -/
theorem effect_writeTestClasses (folder : String) (settings : GenerateSettings)
    (tests : List Suite.TestClass) (s : Session) :
    let d := s.directory
    let writing (tests : List Suite.TestClass) := (writeTestClasses folder settings tests).on s
    let path (t : Suite.TestClass) := joinPath folder t.fileName
    let longer (t : Suite.TestClass) :=
      t.withPrefix settings.testClassNamePrefixIfFileExists
    let behind (tests : List Suite.TestClass) :=
      String.join (tests.map fun t => "\n\n" ++ (longer t).bare settings)
    let accepted (t : Suite.TestClass) :=
      (d.hasPath (path t) = false ∧ ∃ location, d.FileAt (path t) location)
        ∨ ∃ text, d.readText (path t) = .ok text
    (d.hasFolder folder = true → ∀ t ∈ tests, Directory.IsStep t.fileName →
      ((∃ location, d.FileAt (path t) location) ↔ Directory.Takes folder t.fileName))
    ∧ ((∀ t ∈ tests, accepted t) →
      ∃ e, writing tests
          = (.ok (tests.mapIdx fun i t =>
              if (writing (tests.take i)).2.directory.hasPath (path t) then
                ⟨path t, (longer t).name, .appended⟩
              else ⟨path t, t.name, .created⟩), { s with directory := e })
        ∧ (∀ p text, d.readText p = .ok text →
          e.readText p
            = .ok (text ++ behind (tests.filter fun t => d.SameFile p (path t))))
        ∧ (∀ p t rest, d.hasPath p = false →
          (tests.filter fun t => d.SameFile p (path t)) = t :: rest →
          e.readText p = .ok (t.full settings ++ behind rest))
        ∧ ∀ location, (∀ t ∈ tests, ¬d.FileAt (path t) location) →
          e.lookup? location = d.lookup? location)
    ∧ ∀ before t after, tests = before ++ t :: after → (∀ t ∈ before, accepted t) →
      ¬accepted t →
      ∃ task cause, writing tests = (.error (.file task (path t) cause), (writing before).2) := by
  intro d writing path longer behind accepted
  refine ⟨fun hfolder t _ hstep => Directory.exists_fileAt_joinPath_iff hfolder hstep,
    fun haccepted => ?_, ?_⟩
  · obtain ⟨e, hon, heffect⟩ : ∃ e, writing tests = _ ∧ Effect folder settings d tests e :=
      on_writeTestClasses_accepted fun t ht => Directory.accepts_iff.mpr (haccepted t ht)
    exact ⟨e, hon, fun p text hread => heffect.readText_of_readText hread,
      fun p t rest hpath hfilter => heffect.readText_of_hasPath_eq_false hpath hfilter,
      heffect.others⟩
  · rintro before t after rfl hbefore ht
    exact on_writeTestClasses_failed
      (fun other hother => Directory.accepts_iff.mpr (hbefore other hother))
      (mt Directory.accepts_iff.mp ht)

/-! ## Test classes that are written and refused -/

/-- A folder `T` with a text in the file of `ATests`, and with a folder in the place of the file
of `CTests`. -/
def keptFolder : Directory :=
  ⟨[(["T"], .folder), (["T", "ATests.cs"], .file (Text.encode "// kept")),
    (["T", "CTests.cs"], .folder)]⟩

/-- Two test classes `BTests` make one new file behind what is written for `ATests`. A test class
`CTests` is not written, nor is anything behind it. -/
theorem effect_writeTestClasses_keptFolder :
    let start : Session := { directory := keptFolder }
    let a := Suite.TestClass.plain "A"
    let b := Suite.TestClass.plain "B"
    let c := Suite.TestClass.plain "C"
    (keptFolder.readText "./T/ATests.cs" = .ok "// kept"
      ∧ keptFolder.hasPath "./T/BTests.cs" = false
      ∧ keptFolder.FileAt "./T/BTests.cs" ["T", "BTests.cs"])
    ∧ (∃ e, (writeTestClasses "./T" {} [a, b, b]).on start
        = (.ok [⟨"./T/ATests.cs", "DdtATests", .appended⟩, ⟨"./T/BTests.cs", "BTests", .created⟩,
            ⟨"./T/BTests.cs", "DdtBTests", .appended⟩], { directory := e })
      ∧ e.readText "./T/ATests.cs"
        = .ok ("// kept" ++ ("\n\n" ++ (a.withPrefix "Ddt").bare {}))
      ∧ e.readText "./T/BTests.cs"
        = .ok (b.full {} ++ ("\n\n" ++ (b.withPrefix "Ddt").bare {})))
    ∧ (∀ text, keptFolder.readText "./T/CTests.cs" ≠ .ok text)
    ∧ keptFolder.hasPath "./T/CTests.cs" = true
    ∧ ∃ task cause, (writeTestClasses "./T" {} [a, c, b]).on start
        = (.error (.file task "./T/CTests.cs" cause),
          ((writeTestClasses "./T" {} [a]).on start).2) := by
  intro start a b c
  have hpaths : joinPath "./T" a.fileName = "./T/ATests.cs"
      ∧ joinPath "./T" b.fileName = "./T/BTests.cs"
      ∧ joinPath "./T" c.fileName = "./T/CTests.cs" := by decide +kernel
  have hkept : keptFolder.readText "./T/ATests.cs" = .ok "// kept" :=
    Directory.readText_eq_ok_iff.mpr
      ⟨["T", "ATests.cs"], _, by decide +kernel, rfl, Text.decode?_encode _⟩
  have hnew : keptFolder.hasPath "./T/BTests.cs" = false
      ∧ keptFolder.FileAt "./T/BTests.cs" ["T", "BTests.cs"] := by decide +kernel
  have hfolder : keptFolder.hasPath "./T/CTests.cs" = true
      ∧ keptFolder.FileAt "./T/CTests.cs" ["T", "CTests.cs"] := by decide +kernel
  have hunread : ∀ text, keptFolder.readText "./T/CTests.cs" ≠ .ok text := fun text hread =>
    (hfolder.2.holds_some_iff.mpr hread).ne_folder rfl
  have hsame : keptFolder.SameFile "./T/ATests.cs" "./T/ATests.cs"
      ∧ ¬keptFolder.SameFile "./T/ATests.cs" "./T/BTests.cs"
      ∧ ¬keptFolder.SameFile "./T/BTests.cs" "./T/ATests.cs"
      ∧ keptFolder.SameFile "./T/BTests.cs" "./T/BTests.cs" := by decide +kernel
  obtain ⟨-, hwritten, -⟩ := effect_writeTestClasses "./T" {} [a, b, b] { directory := keptFolder }
  obtain ⟨-, -, hfailed⟩ := effect_writeTestClasses "./T" {} [a, c, b] { directory := keptFolder }
  have hlast := hfailed [a] c [b] rfl
  simp only [List.forall_mem_cons, hpaths] at hwritten
  simp only [List.forall_mem_singleton, hpaths] at hlast
  obtain ⟨e, hon, htexts, hnews, -⟩ := hwritten
    ⟨.inr ⟨_, hkept⟩, .inl ⟨hnew.1, _, hnew.2⟩, .inl ⟨hnew.1, _, hnew.2⟩, by simp⟩
  refine ⟨⟨hkept, hnew⟩, ⟨e, hon.trans ?_, (htexts _ _ hkept).trans ?_,
    (hnews _ b [b] hnew.1 ?_).trans ?_⟩, hunread, hfolder.1,
    hlast (.inr ⟨_, hkept⟩) ?_⟩
  · exact congrArg (fun files : List WrittenFile => (Except.ok files, _)) (by decide +kernel)
  · simp [hpaths, hsame]
  · simp [hpaths, hsame]
  · simp
  · rintro (⟨hpath, -⟩ | ⟨text, hread⟩)
    · exact absurd (hpath.symm.trans hfolder.1) (by decide)
    · exact hunread text hread

/-- **A test class is not written under a name that is too long**, although its path means
nothing and its folder is there. -/
theorem not_written_longName :
    let t := Suite.TestClass.plain (longName 248)
    longFolder.hasFolder plainProject.directory = true
    ∧ longFolder.hasPath (joinPath plainProject.directory t.fileName) = false
    ∧ Directory.IsStep t.fileName
    ∧ ∀ settings, ∃ error, ((writeTestClasses plainProject.directory settings [t]).on
        { directory := longFolder }).1 = .error error := by
  intro t
  obtain ⟨hstep, htakes⟩ := @isStep_longName 248 (by decide)
  refine ⟨by decide +kernel, Directory.hasPath_joinPath_of_not_takes hstep (htakes _), hstep,
    fun settings => ?_⟩
  cases hwritten : ((writeTestClasses plainProject.directory settings [t]).on
      { directory := longFolder }).1 with
  | error error => exact ⟨error, rfl⟩
  | ok files =>
    have htaken := forall_takes_of_ok (List.forall_mem_singleton.mpr hstep) hwritten
    exact absurd (htaken t List.mem_cons_self) (htakes _)

end TestScaffold
