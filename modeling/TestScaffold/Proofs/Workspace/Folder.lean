import TestScaffold.Proofs.Workspace.Directory
/-!
# Files in a folder

A name that is one step of a path leads from a folder to a place right in it
(`fileAt_joinPath`), provided that the file system takes it: names and paths are limited in
their length (`Takes`). Different names lead to different places, whatever the folder is
spelled like.
-/

namespace TestScaffold.Directory

variable {d : Directory} {folder name path : String} {base location : Location}

/-! ## Steps -/

/-- Steps lead on from where the steps in front of them lead. -/
theorem walk_append (d : Directory) (location : Location) (front back : List String) :
    d.walk location (front ++ back) = d.walk location front >>= fun l => d.walk l back := by
  induction front generalizing location with
  | nil => rfl
  | cons step front ih =>
    rw [List.cons_append, walk, walk]
    cases d.checkFolder location with
    | error cause => rfl
    | ok u =>
      simp only [bind, Except.bind]
      split
      · exact ih location
      split
      · split
        · rfl
        · exact ih _
      split
      · rfl
      · exact ih _

/-- **A name that is one step of a path**: no way up, no way to stay and no way further
down. -/
structure IsStep (name : String) : Prop where
  /-- It holds something. -/
  ne : name ≠ ""
  /-- It does not stay and does not lead up. -/
  ne_dots : name ≠ "." ∧ name ≠ ".."
  /-- It is a single step. -/
  slash_notMem : '/' ∉ name.toList

namespace IsStep

theorem toList_ne (h : IsStep name) : name.toList ≠ [] :=
  fun hnil => h.ne (String.toList_eq_nil_iff.mp hnil)

theorem isAbsolute_eq (h : IsStep name) : Path.isAbsolute name.toList = false := by
  unfold Path.isAbsolute
  rw [beq_eq_false_iff_ne]
  exact fun hhead => h.slash_notMem (List.mem_of_mem_head? hhead)

theorem splitWhere_eq (h : IsStep name) :
    Text.splitWhere (· == '/') name.toList = [name.toList] :=
  Text.splitWhere_of_none fun _ hc =>
    beq_eq_false_iff_ne.mpr fun heq => h.slash_notMem (heq ▸ hc)

end IsStep

/-- The path of a name is the name behind a slash, unless there is no folder. -/
theorem toList_joinPath_cases (folder : String) (h : IsStep name) :
    (folder.toList = [] ∧ (joinPath folder name).toList = name.toList)
      ∨ ∃ front, (joinPath folder name).toList = front ++ '/' :: name.toList
        ∧ (folder.toList = front ∨ folder.toList = front ++ ['/']) := by
  unfold joinPath Path.join
  rw [String.toList_ofList, h.isAbsolute_eq]
  simp only [Bool.false_eq_true, if_false]
  split
  · rename_i hend
    rcases Bool.or_eq_true_iff.mp hend with hnil | hlast
    · exact .inl ⟨List.isEmpty_iff.mp hnil, by simp [List.isEmpty_iff.mp hnil]⟩
    · obtain ⟨front, hfront⟩ := List.getLast?_eq_some_iff.mp (beq_iff_eq.mp hlast)
      exact .inr ⟨front, by simp [hfront], .inr hfront⟩
  · exact .inr ⟨folder.toList, rfl, .inl rfl⟩

/-- A path ends in the name that it is made for, behind a slash or nothing. -/
theorem exists_toList_joinPath (folder name : String) :
    ∃ front, (joinPath folder name).toList = front ++ name.toList
      ∧ ∀ c ∈ front.getLast?, c = '/' := by
  unfold joinPath Path.join
  rw [String.toList_ofList]
  split
  · exact ⟨[], rfl, by simp⟩
  split
  · rename_i hend
    refine ⟨folder.toList, rfl, fun c hc => ?_⟩
    rcases Bool.or_eq_true_iff.mp hend with hnil | hlast
    · simp [List.isEmpty_iff.mp hnil] at hc
    · rw [beq_iff_eq.mp hlast] at hc
      exact (Option.some.inj hc).symm
  · exact ⟨folder.toList ++ ['/'], by simp, by simp⟩

/-- **A word in front of a name makes another path**, whatever the folders are. -/
theorem joinPath_append_ne {word : String} (hne : word.toList ≠ []) (hslash : '/' ∉ word.toList)
    (folder other name : String) : joinPath folder (word ++ name) ≠ joinPath other name := by
  intro heq
  obtain ⟨front, hfront, -⟩ := exists_toList_joinPath folder (word ++ name)
  obtain ⟨back, hback, hends⟩ := exists_toList_joinPath other name
  rw [heq, hback, String.toList_append, ← List.append_assoc] at hfront
  have hword : back = front ++ word.toList := List.append_cancel_right hfront
  have hlast := hends (word.toList.getLast hne) (by
    rw [hword, List.getLast?_append, List.getLast?_eq_some_getLast hne]
    rfl)
  exact hslash (hlast ▸ List.getLast_mem hne)

/-- **A name is the last step of its path**, behind the steps of the folder. -/
theorem steps_joinPath (folder : String) (h : IsStep name) :
    steps (joinPath folder name) = steps folder ++ [name] := by
  have hname : (Text.splitWhere (· == '/') name.toList).filter (fun step => !step.isEmpty)
      = [name.toList] := by
    rw [h.splitWhere_eq]
    simp [h.toList_ne]
  have hbehind : ∀ front rest : List Char, Path.steps (front ++ '/' :: rest)
      = Path.steps front ++ (Text.splitWhere (· == '/') rest).filter (fun step => !step.isEmpty) :=
    fun front rest => by
      unfold Path.steps
      rw [Text.splitWhere_append_cons front rest rfl, List.filter_append]
  unfold steps
  rcases toList_joinPath_cases folder h with ⟨hfolder, hjoin⟩ | ⟨front, hjoin, hfolder⟩
  · rw [hjoin, hfolder, Path.steps, hname]
    simp [Path.steps, Text.splitWhere]
  · have hfront : Path.steps folder.toList = Path.steps front := by
      rcases hfolder with hfolder | hfolder
      · rw [hfolder]
      · rw [hfolder, hbehind]
        simp [Text.splitWhere]
    rw [hjoin, hbehind, hname, hfront]
    simp

/-! ## Where names lead -/

/-- **The file system takes a name in a folder**: neither the name nor its path is too long,
and no null character stands in the name. -/
structure Takes (folder name : String) : Prop where
  /-- The name is short enough. -/
  name_le : name.utf8ByteSize ≤ nameLimit
  /-- So is the path. -/
  path_le : (joinPath folder name).utf8ByteSize ≤ pathLimit
  /-- No null character stands in the name. -/
  null_notMem : '\x00' ∉ name.toList

/-- A text has a byte for each character, or more. -/
theorem length_le_utf8ByteSize (text : String) : text.length ≤ text.utf8ByteSize := by
  obtain ⟨chars, rfl⟩ : ∃ chars, text = String.ofList chars := ⟨_, String.ofList_toList.symm⟩
  rw [String.length_ofList]
  induction chars with
  | nil => exact Nat.zero_le _
  | cons c chars ih =>
    have hsplit : String.ofList (c :: chars) = String.singleton c ++ String.ofList chars := by
      rw [← String.toList_inj]
      simp
    have hpos := c.utf8Size_pos
    rw [hsplit, String.utf8ByteSize_append, String.utf8ByteSize_singleton, List.length_cons]
    omega

theorem Takes.length_le (h : Takes folder name) : name.length ≤ nameLimit :=
  (length_le_utf8ByteSize name).trans h.name_le

/-- A folder that is there has a location. -/
theorem exists_of_hasFolder (h : d.hasFolder folder = true) :
    ∃ base, d.locate folder = .ok base ∧ d.lookup? base = some .folder := by
  unfold hasFolder at h
  split at h
  · rename_i hfind
    obtain ⟨base, hlocate, -, hbase⟩ := find_eq_ok_iff.mp hfind
    exact ⟨base, hlocate, hbase⟩
  · cases h

/-- A path leads somewhere when it can be walked and its steps lead there. -/
theorem locate_eq_ok_iff :
    d.locate path = .ok location ↔
      checkPath path = .ok () ∧ d.walk [] (steps path) = .ok location := by
  unfold locate
  rw [bind_eq_ok_iff]
  exact ⟨fun ⟨_, hcheck, hwalk⟩ => ⟨hcheck, hwalk⟩, fun ⟨hcheck, hwalk⟩ => ⟨(), hcheck, hwalk⟩⟩

/-- The paths that can be walked. -/
theorem checkPath_eq_ok_iff :
    checkPath path = .ok () ↔ '\x00' ∉ path.toList ∧ path.utf8ByteSize ≤ pathLimit
      ∧ path.toList ≠ [] ∧ path.toList.head? ≠ some '/' := by
  unfold checkPath
  by_cases hnull : '\x00' ∈ path.toList
  · simp [hnull]
  by_cases hlong : pathLimit < path.utf8ByteSize
  · simp [hnull, hlong, Nat.not_le.mpr hlong]
  · simp [hnull, hlong, Nat.le_of_not_lt hlong]

/-- The path of a name in a folder can be walked when that of the folder can. -/
theorem checkPath_joinPath (h : IsStep name) (htakes : Takes folder name)
    (hfolder : checkPath folder = .ok ()) : checkPath (joinPath folder name) = .ok () := by
  obtain ⟨hnull, -, hne, hhead⟩ := checkPath_eq_ok_iff.mp hfolder
  rw [checkPath_eq_ok_iff]
  rcases toList_joinPath_cases folder h with ⟨hnil, -⟩ | ⟨front, hjoin, hfront⟩
  · exact absurd hnil hne
  have hmem : ∀ c ∈ front, c ∈ folder.toList := fun c hc => by
    rcases hfront with heq | heq <;> simp [heq, hc]
  have hbegin : front.head? = folder.toList.head? := by
    rcases hfront with rfl | heq
    · rfl
    · cases front with
      | nil => simp [heq] at hhead
      | cons c front => simp [heq]
  refine ⟨?_, htakes.path_le, by simp [hjoin], ?_⟩
  · rw [hjoin]
    simpa [htakes.null_notMem] using mt (hmem _) hnull
  · cases front with
    | nil => rcases hfront with heq | heq <;> simp [heq] at hne hhead
    | cons c front => simpa [hjoin, ← hbegin] using hhead

/-- **A name leads from a folder to a place right in it.** -/
theorem fileAt_joinPath (hlocate : d.locate folder = .ok base)
    (hbase : d.lookup? base = some .folder) (h : IsStep name) (htakes : Takes folder name) :
    d.FileAt (joinPath folder name) (base ++ [name]) := by
  obtain ⟨hcheck, hwalk⟩ := locate_eq_ok_iff.mp hlocate
  refine ⟨locate_eq_ok_iff.mpr ⟨checkPath_joinPath h htakes hcheck, ?_⟩, ?_⟩
  · rw [steps_joinPath folder h, walk_append, hwalk]
    simp [bind, Except.bind, walk, checkFolder, hbase, h.ne_dots, Nat.not_lt.mpr htakes.name_le]
  · have hlast : (joinPath folder name).toList.getLast? = name.toList.getLast? := by
      rcases toList_joinPath_cases folder h with ⟨-, hjoin⟩ | ⟨front, hjoin, -⟩
      · rw [hjoin]
      · rw [hjoin, List.append_cons, List.getLast?_append_of_ne_nil _ h.toList_ne]
    unfold asksForFolder
    rw [hlast, beq_eq_false_iff_ne]
    exact fun hslash => h.slash_notMem (List.mem_of_getLast? hslash)

/-- **A name leads nowhere unless the file system takes it.** -/
theorem Takes.of_locate (h : IsStep name)
    (hlocate : d.locate (joinPath folder name) = .ok location) : Takes folder name := by
  obtain ⟨hcheck, hwalk⟩ := locate_eq_ok_iff.mp hlocate
  obtain ⟨hnull, hlength, -, -⟩ := checkPath_eq_ok_iff.mp hcheck
  refine ⟨?_, hlength, fun hmem => hnull ?_⟩
  · rw [steps_joinPath folder h, walk_append, bind_eq_ok_iff] at hwalk
    obtain ⟨base, -, hlast⟩ := hwalk
    by_contra hlong
    simp only [walk, bind_eq_ok_iff, if_neg h.ne_dots.1, if_neg h.ne_dots.2,
      if_pos (Nat.lt_of_not_le hlong)] at hlast
    obtain ⟨-, -, hlast⟩ := hlast
    cases hlast
  · rcases toList_joinPath_cases folder h with ⟨-, hjoin⟩ | ⟨front, hjoin, -⟩ <;>
      simp [hjoin, hmem]

/-- In a folder that is there, a name leads somewhere exactly when the file system takes it. -/
theorem exists_fileAt_joinPath_iff (hfolder : d.hasFolder folder = true)
    (h : IsStep name) : (∃ location, d.FileAt (joinPath folder name) location) ↔
      Takes folder name := by
  obtain ⟨base, hlocate, hbase⟩ := exists_of_hasFolder hfolder
  exact ⟨fun ⟨_, hat⟩ => .of_locate h hat.1,
    fun htakes => ⟨_, fileAt_joinPath hlocate hbase h htakes⟩⟩

/-- Nothing is there under a name that the file system does not take. -/
theorem hasPath_joinPath_of_not_takes (h : IsStep name) (htakes : ¬Takes folder name) :
    d.hasPath (joinPath folder name) = false := by
  unfold hasPath
  split
  · rename_i entry hfind
    obtain ⟨location, hlocate, -⟩ := find_eq_ok_iff.mp hfind
    exact absurd (.of_locate h hlocate) htakes
  · rfl

end TestScaffold.Directory
