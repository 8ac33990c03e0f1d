import TestScaffold.Proofs.Text.Spacing
import TestScaffold.Workspace.Directory
/-!
# Files by location

A path is read and written at the location it leads to. This module says what reading,
writing and looking for a path do in terms of that location alone (`readText_eq_ok_iff`,
`write_eq_ok_iff`, `FileAt.hasPath_eq`), so that nothing behind it has to walk along a
path again.

Where a path leads depends on the folders of a directory and on nothing else
(`SameFolders.fileAt_iff`): files may come and grow without moving a path. `GrowsInto`
says that a directory still holds all that another one held, and `SameEntries` that two
directories cannot be told apart by what is in them.
-/

namespace TestScaffold.Directory

variable {d e f : Directory} {path text : String} {location : Location}

/-! ## Where paths lead -/

/-- **The location that a path names as that of a file**: it leads there and does not ask
for a folder. -/
def FileAt (d : Directory) (path : String) (location : Location) : Prop :=
  d.locate path = .ok location ∧ asksForFolder path = false

/-- Two paths lead to one file. -/
def SameFile (d : Directory) (path other : String) : Prop :=
  ∃ location, d.FileAt path location ∧ d.FileAt other location

theorem FileAt.unique {other : Location} (h : d.FileAt path location)
    (h' : d.FileAt path other) : other = location :=
  Except.ok.inj (h'.1.symm.trans h.1)

/-- A path names one location as that of a file, or none. -/
theorem fileAt_or_forall_not (d : Directory) (path : String) :
    (∃ location, d.FileAt path location) ∨ ∀ location, ¬d.FileAt path location := by
  cases hlocate : d.locate path with
  | error cause => exact .inr fun location h => by simp [FileAt, hlocate] at h
  | ok location =>
    cases hasks : asksForFolder path with
    | false => exact .inl ⟨location, hlocate, hasks⟩
    | true => exact .inr fun location h => by simp [FileAt, hasks] at h

theorem checkFolder_eq_ok_iff {u : Unit} :
    d.checkFolder location = .ok u ↔ d.lookup? location = some .folder := by
  unfold checkFolder
  split <;> simp [*]

/-- Only the directory itself lies at the empty location. -/
theorem ne_nil_of_lookup? (h : d.lookup? location ≠ some .folder) : location ≠ [] := by
  rintro rfl
  exact h rfl

/-- Two paths lead to one file when they lead to one location and neither asks for a
folder. -/
theorem sameFile_iff {other : String} :
    d.SameFile path other ↔ d.locate path = d.locate other ∧ (d.locate path).isOk = true
      ∧ asksForFolder path = false ∧ asksForFolder other = false := by
  unfold SameFile FileAt
  constructor
  · rintro ⟨location, ⟨hpath, hasks⟩, hother, hasks'⟩
    exact ⟨hpath.trans hother.symm, by rw [hpath]; rfl, hasks, hasks'⟩
  · rintro ⟨hsame, hok, hasks, hasks'⟩
    cases hlocate : d.locate path with
    | error cause => rw [hlocate] at hok; cases hok
    | ok location => exact ⟨location, ⟨rfl, hasks⟩, hsame ▸ hlocate, hasks'⟩

instance (d : Directory) (path other : String) : Decidable (d.SameFile path other) :=
  decidable_of_iff _ sameFile_iff.symm

/-- Steps lead to what the last one names. -/
theorem getLast?_of_walk {name : String} (hname : name ≠ "." ∧ name ≠ "..") :
    ∀ (base : Location) (before : List String),
      d.walk base (before ++ [name]) = .ok location → location.getLast? = some name
  | base, [], h => by
    simp only [List.nil_append, walk, bind, Except.bind, if_neg hname.1, if_neg hname.2] at h
    split at h
    · cases h
    split at h
    · cases h
    · cases h
      exact List.getLast?_concat
  | base, step :: before, h => by
    simp only [List.cons_append, walk, bind, Except.bind] at h
    split at h
    · cases h
    split at h
    · exact getLast?_of_walk hname base before h
    split at h
    · split at h
      · cases h
      · exact getLast?_of_walk hname _ before h
    split at h
    · cases h
    · exact getLast?_of_walk hname _ before h

/-- **A path leads to what its last step names.** -/
theorem FileAt.getLast?_eq {before : List String} {name : String} (h : d.FileAt path location)
    (hsteps : steps path = before ++ [name]) (hname : name ≠ "." ∧ name ≠ "..") :
    location.getLast? = some name := by
  have hlocate := h.1
  unfold locate at hlocate
  rw [hsteps] at hlocate
  cases hcheck : checkPath path with
  | error cause =>
    rw [hcheck] at hlocate
    cases hlocate
  | ok u =>
    rw [hcheck] at hlocate
    exact getLast?_of_walk hname [] before hlocate

/-- The last step of a path is what the path ends in. -/
theorem exists_steps_joinPath (folder name : String) {ending : String}
    (hending : ending.toList ≠ [] ∧ '/' ∉ ending.toList) :
    ∃ before last, steps (joinPath folder (name ++ ending)) = before ++ [last ++ ending] := by
  obtain ⟨front, hfront⟩ : ∃ front,
      (joinPath folder (name ++ ending)).toList = front ++ ending.toList := by
    unfold joinPath Path.join
    rw [String.toList_ofList, String.toList_append]
    split
    · exact ⟨_, rfl⟩
    split
    · exact ⟨folder.toList ++ name.toList, by rw [List.append_assoc]⟩
    · exact ⟨folder.toList ++ '/' :: name.toList, by simp⟩
  have hplain : ∀ c ∈ ending.toList, (c == '/') = false := fun c hc =>
    beq_eq_false_iff_ne.mpr fun heq => hending.2 (heq ▸ hc)
  obtain ⟨pieces, piece, hsplit⟩ := Text.splitWhere_append_of_none front hplain
  have hpiece : [piece ++ ending.toList].filter (fun step => !step.isEmpty)
      = [piece ++ ending.toList] := by
    rw [List.filter_eq_self]
    simp [hending.1]
  refine ⟨(pieces.filter fun step => !step.isEmpty).map String.ofList, String.ofList piece, ?_⟩
  unfold steps Path.steps
  rw [hfront, hsplit, List.filter_append, List.map_append, hpiece, List.map_singleton,
    String.ofList_append, String.ofList_toList]

/-! ## Reading and writing -/

/-- Two steps that may fail succeed when the first one does and then the second one. -/
theorem bind_eq_ok_iff {α β : Type} {step : Except FileError α} {next : α → Except FileError β}
    {result : β} :
    step >>= next = .ok result ↔ ∃ a, step = .ok a ∧ next a = .ok result := by
  cases step <;> simp [bind, Except.bind]

theorem find_eq_ok_iff {entry : Entry} :
    d.find path = .ok entry ↔ ∃ location, d.locate path = .ok location
      ∧ (asksForFolder path = true → d.lookup? location = some .folder)
      ∧ d.lookup? location = some entry := by
  unfold find
  rw [bind_eq_ok_iff]
  refine exists_congr fun location => and_congr_right fun _ => ?_
  cases hasks : asksForFolder path with
  | false => cases d.lookup? location <;> simp
  | true =>
    simp only [if_true, bind_eq_ok_iff, checkFolder_eq_ok_iff]
    cases d.lookup? location <;> simp

/-- The bytes of a file are those at the location of a path. -/
theorem readBytes_eq_ok_iff {bytes : List UInt8} :
    d.readBytes path = .ok bytes ↔
      ∃ location, d.FileAt path location ∧ d.lookup? location = some (.file bytes) := by
  unfold readBytes
  rw [bind_eq_ok_iff]
  constructor
  · rintro ⟨entry, hfind, hbytes⟩
    cases entry with
    | folder => cases hbytes
    | file read =>
      cases hbytes
      obtain ⟨location, hlocate, hasks, hentry⟩ := find_eq_ok_iff.mp hfind
      refine ⟨location, ⟨hlocate, ?_⟩, hentry⟩
      rw [← Bool.not_eq_true]
      exact fun h => by simp [hasks h] at hentry
  · rintro ⟨location, ⟨hlocate, hasks⟩, hentry⟩
    exact ⟨.file bytes, find_eq_ok_iff.mpr ⟨location, hlocate, by simp [hasks], hentry⟩, rfl⟩

/-- **Reading takes the text at the location of a path.** -/
theorem readText_eq_ok_iff :
    d.readText path = .ok text ↔ ∃ location bytes, d.FileAt path location
      ∧ d.lookup? location = some (.file bytes) ∧ Text.decode? bytes = some text := by
  unfold readText
  rw [bind_eq_ok_iff, exists_comm]
  refine exists_congr fun bytes => ?_
  rw [readBytes_eq_ok_iff]
  simp only [← and_assoc, exists_and_right]
  refine and_congr_right fun _ => ?_
  cases Text.decode? bytes <;> simp

/-- The location of a file to write is that of the path, unless there is a folder. -/
theorem locateFile_eq_ok_iff :
    d.locateFile path = .ok location ↔
      d.FileAt path location ∧ d.lookup? location ≠ some .folder := by
  unfold locateFile FileAt
  cases hasks : asksForFolder path with
  | true => simp [bind_eq_ok_iff]
  | false =>
    simp only [Bool.false_eq_true, if_false, bind_eq_ok_iff, and_true]
    constructor
    · rintro ⟨found, hlocate, hfound⟩
      split at hfound
      · cases hfound
      · rename_i hfolder
        cases hfound
        exact ⟨hlocate, by simpa using hfolder⟩
    · rintro ⟨hlocate, hfolder⟩
      exact ⟨location, hlocate, by simp [hfolder]⟩

/-- **Writing puts a text at the location of a path**, unless there is a folder. -/
theorem write_eq_ok_iff :
    d.write path text = .ok e ↔ ∃ location, d.FileAt path location
      ∧ d.lookup? location ≠ some .folder ∧ e = d.set location (.file (Text.encode text)) := by
  unfold write
  rw [bind_eq_ok_iff]
  simp only [locateFile_eq_ok_iff, pure, Except.pure, Except.ok.injEq, and_assoc,
    eq_comm (b := e)]

/-- A path that names the location of a file means something when something is there. -/
theorem FileAt.hasPath_eq (h : d.FileAt path location) :
    d.hasPath path = (d.lookup? location).isSome := by
  have hfind : ∀ entry, d.find path = .ok entry ↔ d.lookup? location = some entry := by
    simp [find_eq_ok_iff, h.1, h.2]
  unfold hasPath
  cases hentry : d.lookup? location with
  | some entry => rw [(hfind entry).mpr hentry]; rfl
  | none =>
    cases hfound : d.find path with
    | error cause => rfl
    | ok entry => cases hentry.symm.trans ((hfind entry).mp hfound)

/-! ## The same folders -/

/-- Two directories have folders at the same locations. -/
def SameFolders (d e : Directory) : Prop :=
  ∀ location, e.lookup? location = some .folder ↔ d.lookup? location = some .folder

theorem SameFolders.refl (d : Directory) : d.SameFolders d :=
  fun _ => Iff.rfl

theorem SameFolders.trans (h : d.SameFolders e) (h' : e.SameFolders f) : d.SameFolders f :=
  fun location => (h' location).trans (h location)

/-- Steps lead to the same location when the folders are the same. -/
theorem SameFolders.walk_eq_ok_iff (h : d.SameFolders e) {found : Location} :
    ∀ (location : Location) (steps : List String),
      e.walk location steps = .ok found ↔ d.walk location steps = .ok found
  | location, [] => Iff.rfl
  | location, step :: steps => by
    simp only [walk, bind_eq_ok_iff, checkFolder_eq_ok_iff, h location]
    refine exists_congr fun _ => and_congr_right fun _ => ?_
    split
    · exact h.walk_eq_ok_iff location steps
    split
    · split
      · exact Iff.rfl
      · exact h.walk_eq_ok_iff _ steps
    split
    · exact Iff.rfl
    · exact h.walk_eq_ok_iff _ steps

/-- A path leads to the same location when the folders are the same. -/
theorem SameFolders.locate_eq_ok_iff (h : d.SameFolders e) :
    e.locate path = .ok location ↔ d.locate path = .ok location := by
  unfold locate
  simp only [bind_eq_ok_iff, h.walk_eq_ok_iff]

/-- **Where a path leads depends on the folders alone.** -/
theorem SameFolders.fileAt_iff (h : d.SameFolders e) :
    e.FileAt path location ↔ d.FileAt path location :=
  and_congr_left fun _ => h.locate_eq_ok_iff

theorem SameFolders.sameFile_iff (h : d.SameFolders e) {other : String} :
    e.SameFile path other ↔ d.SameFile path other :=
  exists_congr fun _ => and_congr h.fileAt_iff h.fileAt_iff

/-- A new file leaves the folders as they are. -/
theorem sameFolders_set (h : d.lookup? location ≠ some .folder) (bytes : List UInt8) :
    d.SameFolders (d.set location (.file bytes)) := by
  intro other
  rw [lookup?_set d other _ (ne_nil_of_lookup? h)]
  split
  · rename_i heq
    simp [heq, h]
  · exact Iff.rfl

/-- Of two entries for a location the later one counts. -/
theorem set_set (d : Directory) (location : Location) (entry later : Entry) :
    (d.set location entry).set location later = d.set location later := by
  have hentries : ∀ entries : List (Location × Entry),
      setEntry location later (setEntry location entry entries)
        = setEntry location later entries := by
    intro entries
    induction entries with
    | nil => simp [setEntry]
    | cons head rest ih =>
      obtain ⟨l, e⟩ := head
      by_cases hl : l = location
      · simp [setEntry, hl]
      · simp [setEntry, hl, ih]
  exact congrArg Directory.mk (hentries d.entries)

/-! ## Growing directories -/

/-- **A directory grows into another one**: the bytes of its files still begin the files at
their locations, and the folders are the same. -/
structure GrowsInto (d e : Directory) : Prop where
  /-- Files keep their bytes and may get more behind them. -/
  files : ∀ {location : Location} {bytes : List UInt8},
    d.lookup? location = some (.file bytes) →
      ∃ more, e.lookup? location = some (.file (bytes ++ more))
  /-- Folders stay, and there are no new ones. -/
  folders : d.SameFolders e

theorem GrowsInto.refl (d : Directory) : d.GrowsInto d :=
  ⟨fun h => ⟨[], by rw [h, List.append_nil]⟩, .refl d⟩

theorem GrowsInto.trans (h : d.GrowsInto e) (h' : e.GrowsInto f) : d.GrowsInto f := by
  refine ⟨fun hfile => ?_, h.folders.trans h'.folders⟩
  obtain ⟨more, hmore⟩ := h.files hfile
  obtain ⟨rest, hrest⟩ := h'.files hmore
  exact ⟨more ++ rest, by rw [hrest, List.append_assoc]⟩

/-- What means something in a directory means something in one that it grows into. -/
theorem GrowsInto.hasPath_eq (h : d.GrowsInto e) (hpath : d.hasPath path = true) :
    e.hasPath path = true := by
  have hfinds : ∀ c : Directory, c.hasPath path = true ↔ ∃ entry, c.find path = .ok entry := by
    intro c
    unfold hasPath
    cases c.find path <;> simp
  obtain ⟨entry, hfind⟩ := (hfinds d).mp hpath
  obtain ⟨location, hlocate, hasks, hentry⟩ := find_eq_ok_iff.mp hfind
  have hasks' := fun hask => (h.folders location).mpr (hasks hask)
  have hlocate' := h.folders.locate_eq_ok_iff.mpr hlocate
  cases entry with
  | folder =>
    exact (hfinds e).mpr ⟨.folder, find_eq_ok_iff.mpr
      ⟨location, hlocate', hasks', (h.folders location).mpr hentry⟩⟩
  | file bytes =>
    obtain ⟨more, hmore⟩ := h.files hentry
    exact (hfinds e).mpr ⟨_, find_eq_ok_iff.mpr ⟨location, hlocate', hasks', hmore⟩⟩

/-- A directory grows when a file is added. -/
theorem growsInto_set_of_none (h : d.lookup? location = none) (bytes : List UInt8) :
    d.GrowsInto (d.set location (.file bytes)) := by
  have hfolder : d.lookup? location ≠ some .folder := by simp [h]
  refine ⟨fun {other read} hfile => ⟨[], ?_⟩, sameFolders_set hfolder bytes⟩
  have hne : other ≠ location := fun heq => by simp [heq, h] at hfile
  rw [lookup?_set d other _ (ne_nil_of_lookup? hfolder), if_neg hne, hfile, List.append_nil]

/-- A directory grows when a file gets more bytes behind its own. -/
theorem growsInto_set_append {bytes : List UInt8}
    (h : d.lookup? location = some (.file bytes)) (more : List UInt8) :
    d.GrowsInto (d.set location (.file (bytes ++ more))) := by
  have hfolder : d.lookup? location ≠ some .folder := by simp [h]
  refine ⟨fun {other read} hfile => ?_, sameFolders_set hfolder _⟩
  rw [lookup?_set d other _ (ne_nil_of_lookup? hfolder)]
  split
  · rename_i heq
    obtain rfl : bytes = read := by simpa [heq, h] using hfile
    exact ⟨more, rfl⟩
  · exact ⟨[], by rw [hfile, List.append_nil]⟩

/-! ## A file unless there is one -/

/-- The directory with a text at a path, unless the path means something already or
nothing can be written there. -/
def withFile (d : Directory) (path text : String) : Directory :=
  if d.hasPath path then d
  else
    match d.write path text with
    | .ok e => e
    | .error _ => d

/-- The new file is at the location of the path, when nothing is there. -/
theorem lookup?_withFile (h : d.FileAt path location) :
    (d.withFile path text).lookup? location
      = (d.lookup? location).or (some (.file (Text.encode text))) := by
  unfold withFile
  rw [h.hasPath_eq]
  cases hentry : d.lookup? location with
  | some entry => simp [hentry]
  | none =>
    have hfolder : d.lookup? location ≠ some .folder := by simp [hentry]
    rw [write_eq_ok_iff.mpr ⟨location, h, hfolder, rfl⟩]
    simp [lookup?_set d location _ (ne_nil_of_lookup? hfolder)]

/-- Nothing else changes. -/
theorem lookup?_withFile_of_not (h : ¬d.FileAt path location) :
    (d.withFile path text).lookup? location = d.lookup? location := by
  unfold withFile
  split
  · rfl
  split
  · rename_i e hwrite
    obtain ⟨other, hother, hfolder, rfl⟩ := write_eq_ok_iff.mp hwrite
    rw [lookup?_set d location _ (ne_nil_of_lookup? hfolder),
      if_neg fun heq : location = other => h (heq ▸ hother)]
  · rfl

/-- **A file is added at most**: the directory grows. -/
theorem growsInto_withFile (d : Directory) (path text : String) :
    d.GrowsInto (d.withFile path text) := by
  rcases fileAt_or_forall_not d path with ⟨location, hat⟩ | hnot
  · unfold withFile
    rw [hat.hasPath_eq]
    cases hentry : d.lookup? location with
    | some entry => exact .refl d
    | none =>
      rw [write_eq_ok_iff.mpr ⟨location, hat, by simp [hentry], rfl⟩]
      exact growsInto_set_of_none hentry _
  · unfold withFile
    split
    · exact .refl d
    split
    · rename_i e hwrite
      obtain ⟨location, hat, -⟩ := write_eq_ok_iff.mp hwrite
      exact absurd hat (hnot location)
    · exact .refl d

/-! ## Directories with the same entries -/

/-- **Two directories have the same entry at every location**, in whatever order they came
to have them. -/
def SameEntries (d e : Directory) : Prop :=
  ∀ location, e.lookup? location = d.lookup? location

theorem SameEntries.refl (d : Directory) : d.SameEntries d :=
  fun _ => rfl

theorem SameEntries.trans (h : d.SameEntries e) (h' : e.SameEntries f) : d.SameEntries f :=
  fun location => (h' location).trans (h location)

theorem SameEntries.symm (h : d.SameEntries e) : e.SameEntries d :=
  fun location => (h location).symm

theorem SameEntries.folders (h : d.SameEntries e) : d.SameFolders e :=
  fun location => by rw [h location]

/-- A file is added to directories with the same entries alike. -/
theorem SameEntries.withFile (h : d.SameEntries e) (path text : String) :
    (d.withFile path text).SameEntries (e.withFile path text) := by
  intro location
  by_cases hat : d.FileAt path location
  · rw [lookup?_withFile hat, lookup?_withFile (h.folders.fileAt_iff.mpr hat), h location]
  · rw [lookup?_withFile_of_not hat,
      lookup?_withFile_of_not (mt h.folders.fileAt_iff.mp hat), h location]

/-- A file is added once. -/
theorem sameEntries_withFile_withFile (d : Directory) (path text : String) :
    (d.withFile path text).SameEntries ((d.withFile path text).withFile path text) := by
  intro location
  have hfolders := (growsInto_withFile d path text).folders
  by_cases hat : d.FileAt path location
  · rw [lookup?_withFile (hfolders.fileAt_iff.mpr hat), lookup?_withFile hat]
    cases d.lookup? location <;> rfl
  · rw [lookup?_withFile_of_not (mt hfolders.fileAt_iff.mp hat)]

/-- A new file is put into directories with the same entries alike. -/
theorem SameEntries.set (h : d.SameEntries e) (hroot : location ≠ []) (entry : Entry) :
    (d.set location entry).SameEntries (e.set location entry) := by
  intro other
  rw [lookup?_set _ _ _ hroot, lookup?_set _ _ _ hroot, h other]

/-- **Files at different locations come in either order.** -/
theorem sameEntries_set_withFile (hfolder : d.lookup? location ≠ some .folder)
    (hother : ¬d.FileAt path location) (bytes : List UInt8) :
    ((d.withFile path text).set location (.file bytes)).SameEntries
      ((d.set location (.file bytes)).withFile path text) := by
  intro found
  have hroot := ne_nil_of_lookup? hfolder
  have hfolders := sameFolders_set hfolder bytes
  rw [lookup?_set _ _ _ hroot]
  by_cases hat : d.FileAt path found
  · have hne : found ≠ location := fun heq => hother (heq ▸ hat)
    rw [lookup?_withFile (hfolders.fileAt_iff.mpr hat), lookup?_withFile hat,
      lookup?_set _ _ _ hroot, if_neg hne, if_neg hne]
  · rw [lookup?_withFile_of_not (mt hfolders.fileAt_iff.mp hat), lookup?_withFile_of_not hat,
      lookup?_set _ _ _ hroot]

/-- The same text is read where the entry at the location of the path is the same. -/
theorem SameFolders.readText_iff (h : d.SameFolders e)
    (hpath : ∀ location, d.FileAt path location → e.lookup? location = d.lookup? location) :
    e.readText path = .ok text ↔ d.readText path = .ok text := by
  rw [readText_eq_ok_iff, readText_eq_ok_iff]
  refine exists_congr fun location => exists_congr fun bytes => ?_
  rw [h.fileAt_iff]
  refine and_congr_right fun hat => ?_
  rw [hpath location hat]

/-- The same paths mean something where the entry at the location of the path is the same. -/
theorem SameFolders.hasPath_eq (h : d.SameFolders e)
    (hpath : ∀ location, d.FileAt path location → e.lookup? location = d.lookup? location) :
    e.hasPath path = d.hasPath path := by
  have hfind : ∀ entry, e.find path = .ok entry ↔ d.find path = .ok entry := by
    intro entry
    rw [find_eq_ok_iff, find_eq_ok_iff]
    refine exists_congr fun location => ?_
    rw [h.locate_eq_ok_iff]
    refine and_congr_right fun hat => ?_
    cases hasks : asksForFolder path with
    | false => rw [hpath location ⟨hat, hasks⟩]
    | true =>
      -- a folder is asked for, and the folders are the same
      simp only [forall_const, h location]
      refine and_congr_right fun hfolder => ?_
      rw [hfolder, (h location).mpr hfolder]
  unfold hasPath
  cases hd : d.find path with
  | ok entry => rw [(hfind entry).mpr hd]
  | error cause =>
    cases he : e.find path with
    | ok entry => cases hd.symm.trans ((hfind entry).mp he)
    | error other => rfl

end TestScaffold.Directory
