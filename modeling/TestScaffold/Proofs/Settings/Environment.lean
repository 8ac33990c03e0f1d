import TestScaffold.Proofs.Settings.Layer
import TestScaffold.Proofs.Text.Search
import TestScaffold.Settings.Load
/-!
# Variables are layers

Each environment variable that holds a setting is a layer of its own
(`Environment.variableLayers`): its value at the end of its path. The layer of the environment
is these layers, laid over one another.

The file with environment variables puts its own variables behind those that are there, and
none that is there already (`exists_withEnvironmentFile`). So they stand over the others, and
over those with the same path that are spelled in another way.
-/

namespace TestScaffold

open Json (IsToml IsTable)

/-! ## Values in variables -/

namespace InlineValue

variable {text rest : List Char} {value : Json}

/-- A table may get a member. -/
theorem isTable_addMember {members : List (Option String × Json)} (h : IsTable members)
    (name : String) (hvalue : IsToml value) : IsTable (addMember members name value) := by
  have hsublist : (members.filter fun member => member.1 != some name).Sublist members :=
    List.filter_sublist
  refine ⟨?_, ?_, ?_⟩
  · rw [addMember, List.map_append, List.nodup_append]
    refine ⟨h.nodup.sublist (hsublist.map _), List.nodup_singleton _, ?_⟩
    rintro n hn other hother rfl
    obtain rfl := List.mem_singleton.mp hother
    obtain ⟨member, hmember, heq⟩ := List.mem_map.mp hn
    exact bne_iff_ne.mp (List.mem_filter.mp hmember).2 heq
  · rw [addMember, List.map_append, List.mem_append, not_or]
    exact ⟨fun hmem => h.named ((hsublist.map _).subset hmem), by simp⟩
  · exact List.forall_mem_append.mpr
      ⟨fun member hmember => h.values member (hsublist.subset hmember),
        List.forall_mem_singleton.mpr hvalue⟩

theorem isToml_bareValue (text : List Char) : IsToml (bareValue text) := by
  unfold bareValue
  split
  · exact .number _
  · exact .text _

section

variable {steps : Nat}

/-- A value is read behind its leading blanks. -/
theorem exists_of_value? (h : value? (steps + 1) text = some (value, rest)) :
    ∃ after, atValue? steps (skipGap text) = some (value, after) := by
  obtain ⟨⟨inner, after⟩, hinner, h⟩ := Option.bind_eq_some_iff.mp h
  obtain ⟨rfl, -⟩ := Prod.mk.inj (Option.some.inj h)
  exact ⟨after, hinner⟩

/-- **What stands at the beginning of a text**: a truth value, a table, a list, a text in quotes
or a value without quotes. -/
theorem cases_of_atValue? (h : atValue? (steps + 1) text = some (value, rest)) :
    (∃ truth, value = .bool truth)
      ∨ (∃ inside, members? steps [] inside = some (value, rest))
      ∨ (∃ inside, items? steps [] inside = some (value, rest))
      ∨ (∃ string, value = .text string)
      ∨ ∃ bare, value = bareValue bare := by
  unfold atValue? at h
  split at h
  · -- the word for what is true
    obtain ⟨rfl, -⟩ := Prod.mk.inj (Option.some.inj h)
    exact .inl ⟨true, rfl⟩
  · -- the word for what is false
    obtain ⟨rfl, -⟩ := Prod.mk.inj (Option.some.inj h)
    exact .inl ⟨false, rfl⟩
  split at h
  · -- a table
    exact .inr (.inl ⟨_, h⟩)
  · -- a list
    exact .inr (.inr (.inl ⟨_, h⟩))
  · -- a text in double quotes
    obtain ⟨⟨string, after⟩, -, hvalue⟩ := Option.map_eq_some_iff.mp h
    obtain ⟨rfl, -⟩ := Prod.mk.inj hvalue
    exact .inr (.inr (.inr (.inl ⟨string, rfl⟩)))
  · -- a character in single quotes
    exact .inr (.inr (.inr (.inl ⟨_, (Prod.mk.inj (Option.some.inj h)).1.symm⟩)))
  · -- a single quote in front of anything else
    cases h
  · -- no quotes
    exact .inr (.inr (.inr (.inr ⟨_, (Prod.mk.inj (Option.some.inj h)).1.symm⟩)))

/-- **The rest of a table**: nothing, or a member, which is the last one or has others behind
it. -/
theorem cases_of_members? {done : List (Option String × Json)}
    (h : members? (steps + 1) done text = some (value, rest)) :
    value = .object done
      ∨ ∃ name inner inside after, value? steps inside = some (inner, after)
        ∧ (value = .object (addMember done name inner)
          ∨ ∃ others, members? steps (addMember done name inner) others = some (value, rest)) := by
  unfold members? at h
  split at h
  · -- the end of the table
    exact .inl (Prod.mk.inj (Option.some.inj h)).1.symm
  obtain ⟨⟨name, afterName⟩, -, h⟩ := Option.bind_eq_some_iff.mp h
  obtain ⟨inside, -, h⟩ := Option.bind_eq_some_iff.mp h
  obtain ⟨⟨inner, afterValue⟩, hinner, h⟩ := Option.bind_eq_some_iff.mp h
  refine .inr ⟨name, inner, inside, afterValue, hinner, ?_⟩
  dsimp only at h
  split at h
  · -- a comma
    exact .inr ⟨_, h⟩
  · -- the end of the table behind the member
    exact .inl (Prod.mk.inj (Option.some.inj h)).1.symm
  · -- anything else
    cases h

/-- **The rest of a list**: nothing, or an item, which is the last one or has others behind
it. -/
theorem cases_of_items? {done : List Json}
    (h : items? (steps + 1) done text = some (value, rest)) :
    (∃ items, value = .array items)
      ∨ ∃ item others, items? steps (item :: done) others = some (value, rest) := by
  unfold items? at h
  split at h
  · -- the end of the list
    exact .inl ⟨_, (Prod.mk.inj (Option.some.inj h)).1.symm⟩
  obtain ⟨⟨item, afterItem⟩, -, h⟩ := Option.bind_eq_some_iff.mp h
  dsimp only at h
  split at h
  · -- a comma
    exact .inr ⟨item, _, h⟩
  · -- the end of the list behind the item
    exact .inl ⟨_, (Prod.mk.inj (Option.some.inj h)).1.symm⟩
  · -- anything else
    cases h

end

/-- A list that is read is a list. -/
theorem exists_of_items? {steps : Nat} {done : List Json}
    (h : items? steps done text = some (value, rest)) : ∃ items, value = .array items := by
  induction steps generalizing done text with
  | zero => cases h
  | succ steps ih =>
    rcases cases_of_items? h with hitems | ⟨item, others, hothers⟩
    · exact hitems
    · exact ih hothers

/-- **Every value that is read is that of a layer**, and so is every table behind members of a
table. -/
theorem isToml_of_value? (steps : Nat) :
    (∀ {text rest : List Char} {value : Json},
      value? steps text = some (value, rest) → IsToml value)
    ∧ (∀ {text rest : List Char} {value : Json},
      atValue? steps text = some (value, rest) → IsToml value)
    ∧ ∀ {done : List (Option String × Json)} {text rest : List Char} {value : Json},
      IsTable done → members? steps done text = some (value, rest) → IsToml value := by
  induction steps with
  | zero => exact ⟨fun h => (nomatch h), fun h => (nomatch h), fun _ h => (nomatch h)⟩
  | succ steps ih =>
    obtain ⟨ihValue, ihAt, ihMembers⟩ := ih
    refine ⟨fun h => ?value, fun h => ?atValue, fun hdone h => ?members⟩
    case value =>
      obtain ⟨after, hat⟩ := exists_of_value? h
      exact ihAt hat
    case atValue =>
      rcases cases_of_atValue? h with ⟨truth, rfl⟩ | ⟨inside, htable⟩ | ⟨inside, hlist⟩
        | ⟨string, rfl⟩ | ⟨bare, rfl⟩
      · exact .bool truth
      · exact ihMembers Json.isTable_nil htable
      · obtain ⟨items, rfl⟩ := exists_of_items? hlist
        exact .array items
      · exact .text string
      · exact isToml_bareValue bare
    case members =>
      rcases cases_of_members? h with rfl | ⟨name, inner, inside, after, hinner, hrest⟩
      · exact Json.isToml_object_iff.mpr hdone
      · have hmore := isTable_addMember hdone name (ihValue hinner)
        rcases hrest with rfl | ⟨others, hothers⟩
        · exact Json.isToml_object_iff.mpr hmore
        · exact ihMembers hmore hothers

/-- **The value of a variable is that of a layer.** -/
theorem isToml_read (text : String) : IsToml (read text) := by
  unfold read
  split
  · rename_i value hvalue
    exact (isToml_of_value? _).1 hvalue
  · exact .text text

end InlineValue

/-! ## Variables -/

namespace Environment

/-- **The layers of the variables**, one for each that holds a setting. -/
def variableLayers (environment : Environment) : List Json :=
  environment.filterMap fun (name, value) =>
    (settingPath? name).map fun path => nest path (InlineValue.read value)

theorem layer_eq_overlay (environment : Environment) :
    environment.layer = Json.overlay environment.variableLayers :=
  rfl

theorem variableLayers_append (environment more : Environment) :
    variableLayers (environment ++ more) = environment.variableLayers ++ more.variableLayers :=
  List.filterMap_append

/-- The path of a setting has a name. -/
theorem ne_nil_of_settingPath? {name : String} {path : List String}
    (h : settingPath? name = some path) : path ≠ [] := by
  obtain ⟨rest, -, h⟩ := Option.bind_eq_some_iff.mp h
  obtain ⟨u, -, h⟩ := Option.bind_eq_some_iff.mp h
  rw [← Option.some.inj h]
  have hsplit : ∀ text, Text.splitAt ['_', '_'] text ≠ [] := fun text => by
    rw [Text.splitAt_eq (List.cons_ne_nil _ _)]
    split <;> exact List.cons_ne_nil _ _
  obtain ⟨first, others, hfirst⟩ := List.exists_cons_of_ne_nil (hsplit (Text.trim rest))
  rw [hfirst, List.flatMap_cons]
  simp [Text.splitWhere_ne_nil]

/-- A value at the end of a path is that of a layer, and a table unless the path ends at
once. -/
theorem isToml_nest {value : Json} (h : IsToml value) (path : List String) :
    IsToml (nest path value) := by
  induction path with
  | nil => exact h
  | cons name path ih =>
    exact Json.isToml_object_iff.mpr
      ⟨List.nodup_singleton _, by simp, List.forall_mem_singleton.mpr ih⟩

/-- **The layer of a variable is a table.** -/
theorem exists_of_mem_variableLayers {environment : Environment} {layer : Json}
    (h : layer ∈ environment.variableLayers) :
    IsToml layer ∧ ∃ members, layer = .object members := by
  obtain ⟨⟨name, value⟩, -, hlayer⟩ := List.mem_filterMap.mp h
  obtain ⟨path, hpath, rfl⟩ := Option.map_eq_some_iff.mp hlayer
  obtain ⟨first, others, rfl⟩ := List.exists_cons_of_ne_nil (ne_nil_of_settingPath? hpath)
  exact ⟨isToml_nest (InlineValue.isToml_read value) _, _, rfl⟩

end Environment

/-! ## The file with environment variables -/

/-- **Variables of a file stand behind those that are there**, none of which they name. -/
theorem DotEnv.exists_defineAll (known : Environment) (lines : List (Option (List Char))) :
    ∃ added, defineAll known lines = known ++ added
      ∧ ∀ entry ∈ added, known.lookup entry.1 = none := by
  induction lines generalizing known with
  | nil => exact ⟨[], (List.append_nil known).symm, by simp⟩
  | cons line lines ih =>
    have hnothing : ∃ added, known = known ++ added
        ∧ ∀ entry ∈ added, known.lookup entry.1 = none :=
      ⟨[], (List.append_nil known).symm, by simp⟩
    cases line with
    | none => exact hnothing
    | some statement =>
      rw [defineAll]
      split
      · exact ih known
      split
      · rename_i name value _
        unfold define
        split
        · exact ih known
        · rename_i hnew
          rw [Option.not_isSome_iff_eq_none] at hnew
          obtain ⟨added, hadded, hnames⟩ := ih (known ++ [(name, value)])
          refine ⟨(name, value) :: added, by simp [hadded], List.forall_mem_cons.mpr
            ⟨hnew, fun entry hentry => ?_⟩⟩
          have hnone := hnames entry hentry
          rw [List.lookup_append, Option.or_eq_none_iff] at hnone
          exact hnone.1
      · exact hnothing

/-- **The environment file only adds variables**, whose names no variable has. -/
theorem Settings.exists_withEnvironmentFile (d : Directory) (environment : Environment) :
    ∃ added, withEnvironmentFile d environment = environment ++ added
      ∧ ∀ entry ∈ added, environment.lookup entry.1 = none := by
  unfold withEnvironmentFile
  split
  · exact DotEnv.exists_defineAll environment _
  · exact ⟨[], (List.append_nil environment).symm, by simp⟩

end TestScaffold
