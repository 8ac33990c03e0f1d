import TestScaffold.Proofs.Command.Batch
/-!
# The test classes that are written

Writing documents goes on behind one that fails, and what the failing document wrote stays
written. `writtenEach` follows the work and lists every test class that it writes, also those
of documents that fail later on; the list is a `Journal` of the directory, step by step from
what was there to what is there behind the work (`journal_writtenEach`). Hence a file that is
not on the list is as it was before (`Journal.exists_mem_of_ne`).

The list that `writeEach` answers is part of this journal. It is the whole journal exactly
when no document breaks off, that is, fails behind a test class that it wrote
(`sublist_and_eq_writtenEach_iff`).
-/

namespace TestScaffold

/-! ## Journals -/

namespace Directory

/-- **A test class is put into a folder**, into a file of its own or behind the text of the
file that is there. -/
inductive Puts (folder : String) (settings : GenerateSettings) (t : Suite.TestClass)
    (d : Directory) : WrittenFile → Directory → Prop
  /-- It gets a file of its own. -/
  | created {location : Location} (hat : d.FileAt (joinPath folder t.fileName) location)
    (hnone : d.lookup? location = none) :
    Puts folder settings t d ⟨joinPath folder t.fileName, t.name, .created⟩
      (d.set location (.file (Text.encode (t.full settings))))
  /-- It is put behind the text of a file, under a longer name. -/
  | appended {location : Location} {bytes : List UInt8} {old : String}
    (hat : d.FileAt (joinPath folder t.fileName) location)
    (hfile : d.lookup? location = some (.file bytes)) (hdecode : Text.decode? bytes = some old) :
    Puts folder settings t d
      ⟨joinPath folder t.fileName,
        (t.withPrefix settings.testClassNamePrefixIfFileExists).name, .appended⟩
      (d.set location (.file (bytes ++ Text.encode
        ("\n\n" ++ (t.withPrefix settings.testClassNamePrefixIfFileExists).bare settings))))

/-- **The test classes of some classes are put into a folder**, one after another. -/
inductive Journal (folder : String) (settings : GenerateSettings) :
    Directory → List WrittenFile → Directory → Prop
  /-- Nothing is written. -/
  | nil (d : Directory) : Journal folder settings d [] d
  /-- One test class is written in front of the others. -/
  | cons {d e f : Directory} {c : Class} {file : WrittenFile} {files : List WrittenFile}
    (head : d.Puts folder settings (.ofClass c) file e) (tail : Journal folder settings e files f) :
    Journal folder settings d (file :: files) f

variable {d e f : Directory} {folder : String} {settings : GenerateSettings}
  {t : Suite.TestClass} {file : WrittenFile} {files more : List WrittenFile}
  {location : Location}

theorem Puts.growsInto (h : d.Puts folder settings t file e) : d.GrowsInto e := by
  cases h with
  | created _ hnone => exact growsInto_set_of_none hnone _
  | appended _ hfile _ => exact growsInto_set_append hfile _

/-- A test class is put into the file of its path and nowhere else. -/
theorem Puts.lookup?_of_not (h : d.Puts folder settings t file e)
    (hnot : ¬d.FileAt file.path location) : e.lookup? location = d.lookup? location := by
  cases h with
  | @created other hat hnone =>
    have hfolder : d.lookup? other ≠ some .folder := by simp [hnone]
    rw [lookup?_set d location _ (ne_nil_of_lookup? hfolder),
      if_neg fun heq : location = other => hnot (heq ▸ hat)]
  | @appended other bytes old hat hfile _ =>
    have hfolder : d.lookup? other ≠ some .folder := by simp [hfile]
    rw [lookup?_set d location _ (ne_nil_of_lookup? hfolder),
      if_neg fun heq : location = other => hnot (heq ▸ hat)]

theorem Journal.append (h : Journal folder settings d files e)
    (h' : Journal folder settings e more f) : Journal folder settings d (files ++ more) f := by
  induction h with
  | nil => exact h'
  | cons head _ ih => exact .cons head (ih h')

theorem Journal.growsInto (h : Journal folder settings d files e) : d.GrowsInto e := by
  induction h with
  | nil d => exact .refl d
  | cons head _ ih => exact head.growsInto.trans ih

/-- **Every change is on the list**: what is there behind a journal is what was there before,
but for the files of the paths that the journal lists. -/
theorem Journal.exists_mem_of_ne (h : Journal folder settings d files e)
    (hne : e.lookup? location ≠ d.lookup? location) :
    ∃ file ∈ files, d.FileAt file.path location := by
  induction h with
  | nil => exact absurd rfl hne
  | @cons d e f c file files head _ ih =>
    by_cases hat : d.FileAt file.path location
    · exact ⟨file, .head _, hat⟩
    · rw [← head.lookup?_of_not hat] at hne
      obtain ⟨other, hother, hat⟩ := ih hne
      exact ⟨other, .tail _ hother, head.growsInto.folders.fileAt_iff.mp hat⟩

/-- A path that means nothing, and that no listed path leads to, means nothing behind a
journal either. -/
theorem Journal.hasPath_eq_false {path : String} (h : Journal folder settings d files e)
    (hpath : d.hasPath path = false) (hfiles : ∀ file ∈ files, ¬d.SameFile path file.path) :
    e.hasPath path = false := by
  rw [← hpath]
  refine h.growsInto.folders.hasPath_eq fun location hat => ?_
  by_contra hne
  obtain ⟨file, hmem, hfile⟩ := h.exists_mem_of_ne hne
  exact hfiles file hmem ⟨location, hat, hfile⟩

end Directory

/-! ## Test classes -/

/-- **A test class is put into a folder, or nothing happens.** -/
theorem puts_or_error (folder : String) (settings : GenerateSettings) (t : Suite.TestClass)
    (s : Session) :
    (∃ file e, s.directory.Puts folder settings t file e
      ∧ (writeTestClass folder settings t).on s = (.ok file, { s with directory := e }))
    ∨ ∃ error, (writeTestClass folder settings t).on s = (.error error, s) := by
  rcases s.directory.writes_cases (joinPath folder t.fileName) with
    ⟨location, hat, hnone⟩ | ⟨location, bytes, old, hat, hfile, hdecode⟩ | hunwritable
  · exact .inl ⟨_, _, .created hat hnone, on_writeTestClass_created hat hnone⟩
  · exact .inl ⟨_, _, .appended hat hfile hdecode, on_writeTestClass_appended hat hfile hdecode⟩
  · exact .inr (exists_on_writeTestClass_failed hunwritable)

/-- The answers of some work on one item after another, up to the first one that it fails
on. -/
def Task.answers {α β : Type} (work : β → Task α) : List β → Session → List α
  | [], _ => []
  | item :: items, s =>
    match (work item).on s with
    | (.ok a, s) => a :: answers work items s
    | (.error _, _) => []

/-- Test classes are written as their journal says. -/
theorem journal_answers (folder : String) (settings : GenerateSettings)
    {tests : List Suite.TestClass} (htests : ∀ t ∈ tests, ∃ c, t = .ofClass c) (s : Session) :
    Directory.Journal folder settings s.directory
        (Task.answers (writeTestClass folder settings) tests s)
        ((writeTestClasses folder settings tests).on s).2.directory
      ∧ ∀ files, ((writeTestClasses folder settings tests).on s).1 = .ok files →
        files = Task.answers (writeTestClass folder settings) tests s := by
  induction tests generalizing s with
  | nil =>
    rw [writeTestClasses, Task.answers, Task.on_pure]
    exact ⟨.nil _, fun files hok => (Except.ok.inj hok).symm⟩
  | cons t tests ih =>
    obtain ⟨⟨c, rfl⟩, hrest⟩ := List.forall_mem_cons.mp htests
    rw [writeTestClasses, Task.answers]
    rcases puts_or_error folder settings (.ofClass c) s with ⟨file, e, hputs, hon⟩ | ⟨error, hon⟩
    · obtain ⟨hjournal, hfiles⟩ := ih hrest { s with directory := e }
      rw [Task.on_bind_ok hon, hon]
      rcases hrest : (writeTestClasses folder settings tests).on { s with directory := e }
        with ⟨error | more, u⟩ <;> rw [hrest] at hjournal hfiles
      · rw [Task.on_bind_error hrest]
        exact ⟨.cons hputs hjournal, fun files hok => by cases hok⟩
      · rw [Task.on_bind_ok hrest]
        refine ⟨.cons hputs hjournal, fun files hok => ?_⟩
        cases hok
        exact congrArg _ (hfiles more rfl)
    · rw [Task.on_bind_error hon, hon]
      exact ⟨.nil _, fun files hok => by cases hok⟩

/-- The test classes that are loaded are those of classes. -/
theorem exists_ofClass_of_loadTestClasses {quiet : Bool} {ignored : List String}
    {document : DocumentPaths} {s : Session} {tests : List Suite.TestClass}
    (h : ((loadTestClasses quiet ignored document).on s).1 = .ok tests) :
    ∀ t ∈ tests, ∃ c, t = .ofClass c := by
  obtain ⟨notices, hload⟩ := exists_on_loadTestClasses quiet ignored document s
  rw [hload] at h
  obtain ⟨parsed, -, rfl⟩ := Directory.testClasses_eq_ok_iff.mp h
  intro t ht
  obtain ⟨c, -, rfl⟩ := List.mem_map.mp (List.mem_of_mem_filter ht)
  exact ⟨c, rfl⟩

/-! ## Documents -/

section

variable (quiet : Bool) (ignored : List String) (target : Target)

/-- The test classes that are written of a document, also when it fails behind them. -/
def writtenOf (document : DocumentPaths) (s : Session) : List WrittenFile :=
  match (loadTestClasses quiet ignored document).on s with
  | (.ok tests, s) =>
    Task.answers (writeTestClass target.project.directory target.settings) tests s
  | (.error _, _) => []

/-- **The test classes that are written** of some documents, one document after another. -/
def writtenEach : List DocumentPaths → Session → List WrittenFile
  | [], _ => []
  | document :: documents, s =>
    writtenOf quiet ignored target document s
      ++ writtenEach documents ((writeDocument quiet ignored target document).on s).2

/-- **A document breaks off**: it fails behind a test class that it wrote. -/
def BreaksOff (document : DocumentPaths) (s : Session) : Prop :=
  (∃ error, ((writeDocument quiet ignored target document).on s).1 = .error error)
    ∧ writtenOf quiet ignored target document s ≠ []

/-- A document is written as its journal says. -/
theorem journal_writtenOf (document : DocumentPaths) (s : Session) :
    Directory.Journal target.project.directory target.settings s.directory
        (writtenOf quiet ignored target document s)
        ((writeDocument quiet ignored target document).on s).2.directory
      ∧ ∀ files, ((writeDocument quiet ignored target document).on s).1 = .ok files →
        files = writtenOf quiet ignored target document s := by
  have hkeeps := keeps_loadTestClasses quiet ignored document s
  unfold writeDocument writtenOf
  rcases hload : (loadTestClasses quiet ignored document).on s with ⟨error | tests, u⟩ <;>
    rw [hload] at hkeeps
  · rw [Task.on_bind_error hload]
    exact ⟨hkeeps ▸ .nil _, fun files hok => by cases hok⟩
  · rw [Task.on_bind_ok hload, hkeeps]
    exact journal_answers _ _ (exists_ofClass_of_loadTestClasses (congrArg Prod.fst hload)) u

/-- Documents are written as their journal says. -/
theorem journal_writtenEach (documents : List DocumentPaths) (s : Session) :
    Directory.Journal target.project.directory target.settings s.directory
      (writtenEach quiet ignored target documents s)
      ((writeEach quiet ignored target documents).on s).2.directory := by
  induction documents generalizing s with
  | nil => exact .nil _
  | cons document documents ih =>
    rw [on_writeEach_cons]
    exact (journal_writtenOf quiet ignored target document s).1.append (ih _)

end

section

variable {quiet : Bool} {ignored : List String} {target : Target} {document : DocumentPaths}
  {documents : List DocumentPaths} {s t : Session} {files : List WrittenFile}
  {failures : List DocumentFailure}

/-- No document of a list breaks off when the first one does not, nor one of the others behind
it. -/
theorem forall_not_breaksOff_cons :
    (∀ before next after, document :: documents = before ++ next :: after →
      ¬BreaksOff quiet ignored target next ((writeEach quiet ignored target before).on s).2)
    ↔ ¬BreaksOff quiet ignored target document s
      ∧ ∀ before next after, documents = before ++ next :: after →
        ¬BreaksOff quiet ignored target next
          ((writeEach quiet ignored target before).on
            ((writeDocument quiet ignored target document).on s).2).2 := by
  constructor
  · intro h
    refine ⟨h [] document documents rfl, fun before next after heq => ?_⟩
    have hnext := h (document :: before) next after (by rw [heq, List.cons_append])
    rwa [on_writeEach_cons] at hnext
  · rintro ⟨hfirst, hrest⟩ before next after heq
    cases before with
    | nil =>
      obtain ⟨rfl, -⟩ := List.cons.inj heq
      exact hfirst
    | cons first before =>
      obtain ⟨rfl, htail⟩ := List.cons.inj heq
      rw [on_writeEach_cons]
      exact hrest before next after htail

/-- **The files that are answered are some of those that are written**, and all of them
exactly when no document breaks off. -/
theorem sublist_and_eq_writtenEach_iff
    (h : (writeEach quiet ignored target documents).on s = (.ok (files, failures), t)) :
    files.Sublist (writtenEach quiet ignored target documents s)
      ∧ (files = writtenEach quiet ignored target documents s
        ↔ ∀ before document after, documents = before ++ document :: after →
          ¬BreaksOff quiet ignored target document
            ((writeEach quiet ignored target before).on s).2) := by
  induction documents generalizing s files failures t with
  | nil =>
    obtain ⟨⟨rfl, rfl⟩, rfl⟩ := by simpa [writeEach] using h
    exact ⟨.slnil, by simp [writtenEach]⟩
  | cons document documents ih =>
    obtain ⟨-, hown⟩ := journal_writtenOf quiet ignored target document s
    rw [on_writeEach_cons] at h
    dsimp only at h
    rw [forall_not_breaksOff_cons, writtenEach]
    rcases hrest : (writeEach quiet ignored target documents).on
        ((writeDocument quiet ignored target document).on s).2 with ⟨error | ⟨more, failed⟩, u⟩ <;>
      rw [hrest] at h
    · cases h
    obtain ⟨hsublist, hiff⟩ := ih hrest
    rw [← hiff]
    unfold BreaksOff
    cases hfirst : ((writeDocument quiet ignored target document).on s).1 with
    | ok written =>
      rw [hfirst] at h
      cases h
      rw [← hown written hfirst]
      exact ⟨(List.Sublist.refl written).append hsublist, by simp⟩
    | error error =>
      rw [hfirst] at h
      cases h
      refine ⟨hsublist.trans (List.sublist_append_right ..), fun heq : more = _ => ?_,
        fun hall => ?_⟩
      · -- the answer is no longer than the part of the journal behind the document
        have hle := hsublist.length_le
        rw [heq, List.length_append] at hle
        have hnil := List.eq_nil_of_length_eq_zero
          (show (writtenOf quiet ignored target document s).length = 0 by omega)
        rw [hnil, List.nil_append] at heq
        exact ⟨fun hbroken => hbroken.2 hnil, heq⟩
      · obtain ⟨hnot, heq⟩ := hall
        have hnil : writtenOf quiet ignored target document s = [] :=
          of_not_not fun hne => hnot ⟨⟨error, rfl⟩, hne⟩
        rw [hnil, List.nil_append, heq]

end

end TestScaffold
