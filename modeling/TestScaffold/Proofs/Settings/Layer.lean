import Mathlib.Data.List.Nodup
import TestScaffold.Settings.Layer
/-!
# Values of layers

The layers of the settings are made of tables, whose names are texts and distinct, and they
never hold `null` (`IsToml`). What a layer says about a setting is found at the end of a path
of names (`at?`). Layers that lead to a setting through tables, and do not have a table in its
place (`Leads`), say about it what the highest of them says, when they are laid over one
another (`at?_overlay`): a layer that says nothing about a setting leaves it alone, whatever
it says about others.
-/

namespace TestScaffold.Json

variable {members below : List (Option String × Json)} {name : String} {path : List String}
  {low high value : Json}

/-! ## Tables -/

/-- **A value of a layer**: it is not `null`, and the names in a table are texts and distinct.
What is in a list does not matter, for lists are never merged. -/
inductive IsToml : Json → Prop
  | bool (value : Bool) : IsToml (.bool value)
  | natural (value : Nat) : IsToml (.natural value)
  | number (lexeme : String) : IsToml (.number lexeme)
  | text (value : String) : IsToml (.text value)
  | array (items : List Json) : IsToml (.array items)
  | table {members : List (Option String × Json)} (nodup : (members.map Prod.fst).Nodup)
    (named : none ∉ members.map Prod.fst) (values : ∀ member ∈ members, IsToml member.2) :
    IsToml (.object members)

/-- **The members of a table.** -/
structure IsTable (members : List (Option String × Json)) : Prop where
  /-- Their names are distinct. -/
  nodup : (members.map Prod.fst).Nodup
  /-- Their names are texts. -/
  named : none ∉ members.map Prod.fst
  /-- Their values are those of layers. -/
  values : ∀ member ∈ members, IsToml member.2

theorem isToml_object_iff : IsToml (.object members) ↔ IsTable members :=
  ⟨fun | .table nodup named values => ⟨nodup, named, values⟩,
    fun h => .table h.nodup h.named h.values⟩

theorem isTable_nil : IsTable [] :=
  ⟨.nil, by simp, by simp⟩

/-- A member is looked up among the members. -/
theorem mem_of_lookup {name : Option String} (h : members.lookup name = some value) :
    (name, value) ∈ members := by
  induction members with
  | nil => cases h
  | cons member members ih =>
    obtain ⟨n, v⟩ := member
    rw [List.lookup_cons] at h
    split at h
    · rename_i heq
      rw [Option.some.inj h, beq_iff_eq.mp heq]
      exact .head _
    · exact .tail _ (ih h)

theorem IsTable.lookup (h : IsTable members) (hlookup : members.lookup (some name) = some value) :
    IsToml value :=
  h.values _ (mem_of_lookup hlookup)

/-! ## New members -/

/-- A new value is found under its name, and the others as before. -/
theorem lookup_setMember (name other : Option String) (value : Json)
    (members : List (Option String × Json)) :
    (setMember name value members).lookup other
      = if other = name then some value else members.lookup other := by
  induction members with
  | nil =>
    rw [setMember, List.lookup_cons]
    by_cases heq : other = name
    · simp [heq]
    · rw [beq_eq_false_iff_ne.mpr heq, if_neg heq]
  | cons member members ih =>
    obtain ⟨n, v⟩ := member
    rw [setMember]
    by_cases hn : n = name
    · subst hn
      rw [if_pos rfl, List.lookup_cons, List.lookup_cons]
      by_cases heq : other = n
      · simp [heq]
      · rw [beq_eq_false_iff_ne.mpr heq, if_neg heq]
    · rw [if_neg hn, List.lookup_cons, List.lookup_cons, ih]
      by_cases heq : other = name
      · subst heq
        rw [beq_eq_false_iff_ne.mpr (Ne.symm hn)]
      · rw [if_neg heq, if_neg heq]

/-- A new value adds its name at most. -/
theorem mem_map_fst_setMember {name other : Option String} :
    other ∈ (setMember name value members).map Prod.fst
      ↔ other = name ∨ other ∈ members.map Prod.fst := by
  induction members with
  | nil => simp [setMember]
  | cons member members ih =>
    obtain ⟨n, v⟩ := member
    rw [setMember]
    by_cases hn : n = name
    · rw [if_pos hn]
      subst hn
      simp
    · rw [if_neg hn, List.map_cons, List.map_cons, List.mem_cons, List.mem_cons, ih]
      exact or_left_comm

/-- A table with a new value is a table. -/
theorem IsTable.setMember (h : IsTable members) (hvalue : IsToml value) :
    IsTable (setMember (some name) value members) := by
  induction members with
  | nil => exact ⟨List.nodup_singleton _, by simp [Json.setMember], by simpa [Json.setMember]⟩
  | cons member members ih =>
    obtain ⟨n, v⟩ := member
    obtain ⟨hnodup, hnamed, hvalues⟩ := h
    rw [List.map_cons, List.nodup_cons] at hnodup
    rw [List.map_cons, List.mem_cons, not_or] at hnamed
    obtain ⟨hfirst, hrest⟩ := List.forall_mem_cons.mp hvalues
    rw [Json.setMember]
    by_cases hn : n = some name
    · rw [if_pos hn]
      exact ⟨List.nodup_cons.mpr hnodup, by simpa using hnamed,
        List.forall_mem_cons.mpr ⟨hvalue, hrest⟩⟩
    · obtain ⟨hset, hsetNamed, hsetValues⟩ := ih ⟨hnodup.2, hnamed.2, hrest⟩
      rw [if_neg hn]
      refine ⟨List.nodup_cons.mpr ⟨fun hmem => ?_, hset⟩, ?_,
        List.forall_mem_cons.mpr ⟨hfirst, hsetValues⟩⟩
      · exact (mem_map_fst_setMember.mp hmem).elim hn hnodup.1
      · exact fun hmem => (List.mem_cons.mp hmem).elim hnamed.1 hsetNamed

/-! ## One layer over another -/

/-- The members that a value is laid over: those of a table, or none. -/
def membersBelow : Option Json → List (Option String × Json)
  | some (object members) => members
  | _ => []

theorem layOver_object (low : Option Json) (members : List (Option String × Json)) :
    layOver low (.object members) = .object (layMembers (membersBelow low) members) := by
  rcases low with _ | (_ | _ | _ | _ | _ | _ | _) <;> rfl

/-- What is no table stays as it is. -/
theorem layOver_of_ne_object (low : Option Json) (h : ∀ members, high ≠ .object members) :
    layOver low high = high := by
  cases high with
  | object members => exact absurd rfl (h members)
  | null | bool _ | natural _ | number _ | string _ | array _ => rw [layOver]; exact h

/-- **A member of a table over another one** is the upper one, laid over the lower one, or
else the lower one. -/
theorem lookup_layMembers (h : (members.map Prod.fst).Nodup) (name : Option String) :
    (layMembers below members).lookup name
      = match members.lookup name with
        | some value => some (layOver (below.lookup name) value)
        | none => below.lookup name := by
  induction members generalizing below with
  | nil => rfl
  | cons member members ih =>
    obtain ⟨n, v⟩ := member
    obtain ⟨hn, hnodup⟩ := List.nodup_cons.mp h
    rw [layMembers, ih hnodup, lookup_setMember, List.lookup_cons]
    by_cases heq : name = n
    · subst heq
      have hnone : members.lookup name = none :=
        List.lookup_eq_none_iff.mpr fun member hmember =>
          bne_iff_ne.mpr fun heq => hn (List.mem_map.mpr ⟨member, hmember, heq.symm⟩)
      simp [hnone]
    · rw [beq_eq_false_iff_ne.mpr heq, if_neg heq]

/-- **A layer over another one is a layer.** -/
theorem IsToml.layOver (h : IsToml high) {low : Option Json} (hlow : ∀ l ∈ low, IsToml l) :
    IsToml (layOver low high) := by
  induction h generalizing low with
  | bool value => exact .bool value
  | natural value => exact .natural value
  | number lexeme => exact .number lexeme
  | text value => exact .text value
  | array items => exact .array items
  | @table members nodup named values ih =>
    have hbelow : IsTable (membersBelow low) := by
      cases low with
      | none => exact isTable_nil
      | some low =>
        cases low with
        | object below => exact isToml_object_iff.mp (hlow _ rfl)
        | null | bool _ | natural _ | number _ | string _ | array _ => exact isTable_nil
    rw [layOver_object, isToml_object_iff]
    generalize membersBelow low = below at hbelow
    clear hlow nodup
    induction members generalizing below with
    | nil => exact hbelow
    | cons member members ihMembers =>
      obtain ⟨n, v⟩ := member
      obtain ⟨hfirst, hrest⟩ := List.forall_mem_cons.mp values
      obtain ⟨ihFirst, ihRest⟩ := List.forall_mem_cons.mp ih
      rw [List.map_cons, List.mem_cons, not_or] at named
      obtain ⟨name, rfl⟩ := Option.ne_none_iff_exists'.mp (Ne.symm named.1)
      rw [layMembers]
      exact ihMembers named.2 hrest ihRest _
        (hbelow.setMember (ihFirst fun l hl => hbelow.lookup hl))

/-! ## Paths -/

/-- What is at the end of a path of names. -/
def at? : List String → Json → Option Json
  | [], value => some value
  | name :: path, .object members => (members.lookup (some name)).bind (at? path)
  | _ :: _, _ => none

/-- **A path leads through tables** to something that is no table, or to nothing. -/
def Leads : List String → Json → Prop
  | [], value => ∀ members, value ≠ .object members
  | name :: path, value => ∃ members, value = .object members
    ∧ ∀ inner, members.lookup (some name) = some inner → Leads path inner

/-- **The upper layer decides** about what it leads to, and the lower one about all else. -/
theorem at?_layOver {low : Option Json} (hlow : ∀ l ∈ low, Leads path l) (hhigh : Leads path high)
    (htoml : IsToml high) :
    at? path (layOver low high) = (at? path high <|> low.bind (at? path))
      ∧ Leads path (layOver low high) := by
  induction path generalizing low high with
  | nil =>
    rw [layOver_of_ne_object low hhigh]
    exact ⟨rfl, hhigh⟩
  | cons name path ih =>
    obtain ⟨members, rfl, hmembers⟩ := hhigh
    have htable := isToml_object_iff.mp htoml
    have hbelow : (low.bind (at? (name :: path))
          = ((membersBelow low).lookup (some name)).bind (at? path))
        ∧ ∀ inner, (membersBelow low).lookup (some name) = some inner → Leads path inner := by
      cases low with
      | none => exact ⟨rfl, fun inner hinner => nomatch hinner⟩
      | some l =>
        obtain ⟨below, rfl, hbelow⟩ := hlow l rfl
        exact ⟨rfl, hbelow⟩
    rw [layOver_object, hbelow.1, at?, at?, lookup_layMembers htable.nodup]
    have hleads : ∀ inner, (layMembers (membersBelow low) members).lookup (some name) = some inner →
        Leads path inner := by
      intro inner hinner
      rw [lookup_layMembers htable.nodup] at hinner
      cases hvalue : members.lookup (some name) with
      | none =>
        rw [hvalue] at hinner
        exact hbelow.2 inner hinner
      | some value =>
        rw [hvalue] at hinner
        rw [← Option.some.inj hinner]
        exact (ih hbelow.2 (hmembers value hvalue) (htable.lookup hvalue)).2
    refine ⟨?_, _, rfl, hleads⟩
    cases hvalue : members.lookup (some name) with
    | none => simp
    | some value => exact (ih hbelow.2 (hmembers value hvalue) (htable.lookup hvalue)).1

/-! ## Many layers -/

/-- The value that the highest of some layers has at the end of a path. The lowest layer is
the first one. -/
def topmost? (path : List String) (layers : List Json) : Option Json :=
  layers.foldl (fun below layer => at? path layer <|> below) none

/-- The highest layer decides. -/
theorem topmost?_append (path : List String) (layers more : List Json) :
    topmost? path (layers ++ more) = (topmost? path more <|> topmost? path layers) := by
  unfold topmost?
  rw [List.foldl_append]
  generalize layers.foldl (fun below layer => at? path layer <|> below) none = below
  induction more generalizing below with
  | nil => simp
  | cons layer more ih =>
    rw [List.foldl_cons, List.foldl_cons, ih, ih (at? path layer <|> none)]
    simp [Option.orElse_eq_or, Option.or_assoc]

/-- **Layers laid over one another say what the highest of them says.** -/
theorem at?_overlay {layers : List Json} (htoml : ∀ layer ∈ layers, IsToml layer)
    (hleads : ∀ layer ∈ layers, Leads (name :: path) layer) :
    at? (name :: path) (overlay layers) = topmost? (name :: path) layers
      ∧ Leads (name :: path) (overlay layers) := by
  unfold overlay topmost?
  have hlow : Leads (name :: path) (.object []) := ⟨[], rfl, fun inner hinner => nomatch hinner⟩
  have hnone : at? (name :: path) (.object []) = none := rfl
  rw [← hnone]
  generalize Json.object [] = low at hlow
  induction layers generalizing low with
  | nil => exact ⟨rfl, hlow⟩
  | cons layer layers ih =>
    obtain ⟨htoml, htomls⟩ := List.forall_mem_cons.mp htoml
    obtain ⟨hlead, hleads⟩ := List.forall_mem_cons.mp hleads
    have hlows : ∀ l ∈ some low, Leads (name :: path) l := by simpa using hlow
    obtain ⟨hat, hover⟩ := at?_layOver hlows hlead htoml
    obtain ⟨hall, hallLeads⟩ := ih htomls hleads _ hover
    refine ⟨?_, hallLeads⟩
    rw [List.foldl_cons, List.foldl_cons, hall, hat, Option.bind_some]

theorem isToml_overlay {layers : List Json} (htoml : ∀ layer ∈ layers, IsToml layer) :
    IsToml (overlay layers) := by
  unfold overlay
  have hlow : IsToml (.object []) := isToml_object_iff.mpr isTable_nil
  generalize Json.object [] = low at hlow
  induction layers generalizing low with
  | nil => exact hlow
  | cons layer layers ih =>
    obtain ⟨hlayer, hlayers⟩ := List.forall_mem_cons.mp htoml
    exact ih hlayers _ (hlayer.layOver (by simpa))

end TestScaffold.Json
