import TestScaffold.Proofs.Json.Record
import TestScaffold.Proofs.Settings.Layer
import TestScaffold.Settings.Json
/-!
# Settings from their values

The settings that a layer stands for are read from the values that it has at their keys, and
from nothing else (`Settings.ofJson?_eq_ofValues?`): each setting is read on its own, and one
without a value has its default. When every value is of the type of its setting, there are
such settings (`Settings.exists_ofValues?`); so a well-typed layer (`Settings.WellTyped`) can
always be read, whatever else it holds.
-/

namespace TestScaffold

open Json (IsToml IsTable Leads at?)

/-! ## Types of settings -/

/-- What the value of a setting may be. -/
inductive SettingType where
  /-- A text. -/
  | text
  /-- A truth value. -/
  | truth
  /-- A list of texts. -/
  | texts
  /-- The name of a policy. -/
  | policy
deriving DecidableEq, Repr

/-- Whether a value is a text. -/
def Json.isText : Json → Bool
  | .string (some _) => true
  | _ => false

/-- Whether a value is a table. -/
def Json.isObject : Json → Bool
  | .object _ => true
  | _ => false

/-- Whether a value is of a type. -/
def SettingType.holds : SettingType → Json → Bool
  | text, value => value.isText
  | truth, .bool _ => true
  | texts, .array items => items.all Json.isText
  | policy, .string (some name) => (Nullability.ofName? name).isSome
  | _, _ => false

namespace Settings

/-- The keys of the settings with their types. -/
def types : List (List String × SettingType) :=
  [(["generate", "indentation"], .text),
    (["generate", "erase_generic_parameters"], .truth),
    (["generate", "nullability"], .policy),
    (["generate", "nullability_exempt_types"], .texts),
    (["generate", "reserved_method_names"], .texts),
    (["generate", "test_class_name_prefix_if_file_exists"], .text),
    (["generate", "default_namespace"], .text),
    (["generate", "disable_compiler_warnings"], .truth),
    (["generate", "warnings_to_disable"], .texts),
    (["generate", "use_only_new_operator"], .truth),
    (["generate", "usings_file_name"], .text),
    (["generate", "usings_file_content"], .text),
    (["generate", "target_project_namespace"], .text),
    (["parse", "method_names_to_ignore"], .texts)]

/-- **A layer is well typed**: the groups of settings are tables in it, and each setting that
it has a value for is of its type. It may hold anything else. -/
structure WellTyped (layer : Json) : Prop where
  /-- Groups are tables. -/
  groups : ∀ group ∈ fieldNames, (at? [group] layer).all Json.isObject = true
  /-- Settings are of their types. -/
  settings : ∀ entry ∈ types, (at? entry.1 layer).all entry.2.holds = true

instance (layer : Json) : Decidable (WellTyped layer) :=
  decidable_of_iff ((∀ group ∈ fieldNames, (at? [group] layer).all Json.isObject = true)
      ∧ ∀ entry ∈ types, (at? entry.1 layer).all entry.2.holds = true)
    ⟨fun h => ⟨h.1, h.2⟩, fun h => ⟨h.groups, h.settings⟩⟩

/-- Each key is the name of a setting in a group. -/
theorem exists_of_mem_types {entry : List String × SettingType} (h : entry ∈ types) :
    ∃ group ∈ fieldNames, ∃ name, entry.1 = [group, name] := by
  have hkeys : ∀ entry ∈ types,
      ∃ group ∈ fieldNames, ∃ name ∈ entry.1, entry.1 = [group, name] := by
    decide
  obtain ⟨group, hgroup, name, -, hentry⟩ := hkeys entry h
  exact ⟨group, hgroup, name, hentry⟩

end Settings

/-- What is of a type is no table. -/
theorem SettingType.ne_object_of_holds {type : SettingType} {value : Json}
    (h : type.holds value = true) (members : List (Option String × Json)) :
    value ≠ .object members := by
  rintro rfl
  cases type <;> cases h

/-- **A well-typed layer leads to every setting.** -/
theorem Settings.WellTyped.leads {layer : Json} (h : Settings.WellTyped layer)
    (hobject : ∃ members, layer = .object members) {entry : List String × SettingType}
    (hentry : entry ∈ types) : Leads entry.1 layer := by
  obtain ⟨group, hgroup, name, hkey⟩ := exists_of_mem_types hentry
  obtain ⟨members, rfl⟩ := hobject
  have hgroups := h.groups group hgroup
  have hsettings := h.settings entry hentry
  rw [hkey] at hsettings ⊢
  refine ⟨members, rfl, fun inner hinner => ?_⟩
  simp only [at?, hinner, Option.bind_some, Option.all_some] at hgroups hsettings
  cases inner with
  | object inside =>
    refine ⟨inside, rfl, fun value hvalue => ?_⟩
    simp only [at?, hvalue, Option.bind_some, Option.all_some] at hsettings
    exact SettingType.ne_object_of_holds hsettings
  | null | bool _ | natural _ | number _ | string _ | array _ => cases hgroups

/-! ## Settings from their values -/

/-- A setting alone: its value, or else its default. -/
def Json.setting? {α : Type} (value : Option Json) (absent : α) (read : Json → Option α) :
    Option α :=
  match value with
  | some value => read value
  | none => some absent

/-- How tests are written, when the settings have some values: each setting is read on its
own. -/
def GenerateSettings.ofValues? (value? : String → Option Json) : Option GenerateSettings := do
  let d : GenerateSettings := {}
  let texts? := Json.texts? 1
  return {
    indentation := ← Json.setting? (value? "indentation") d.indentation Json.text?
    eraseGenericParameters := ← Json.setting? (value? "erase_generic_parameters")
      d.eraseGenericParameters Json.bool?
    nullability := ← Json.setting? (value? "nullability") d.nullability Nullability.ofJson?
    nullabilityExemptTypes := ← Json.setting? (value? "nullability_exempt_types")
      d.nullabilityExemptTypes texts?
    reservedMethodNames := ← Json.setting? (value? "reserved_method_names")
      d.reservedMethodNames texts?
    testClassNamePrefixIfFileExists :=
      ← Json.setting? (value? "test_class_name_prefix_if_file_exists")
        d.testClassNamePrefixIfFileExists Json.text?
    defaultNamespace := ← Json.setting? (value? "default_namespace") d.defaultNamespace
      Json.text?
    disableCompilerWarnings := ← Json.setting? (value? "disable_compiler_warnings")
      d.disableCompilerWarnings Json.bool?
    warningsToDisable := ← Json.setting? (value? "warnings_to_disable") d.warningsToDisable
      texts?
    useOnlyNewOperator := ← Json.setting? (value? "use_only_new_operator")
      d.useOnlyNewOperator Json.bool?
    usingsFileName := ← Json.setting? (value? "usings_file_name") d.usingsFileName Json.text?
    usingsFileContent := ← Json.setting? (value? "usings_file_content") d.usingsFileContent
      Json.text?
    targetProjectNamespace := ← Json.setting? (value? "target_project_namespace")
      d.targetProjectNamespace (Json.nullable? Json.text?) }

/-- What is left out of documents, when the settings have some values. -/
def ParseSettings.ofValues? (value? : String → Option Json) : Option ParseSettings := do
  return ⟨← Json.setting? (value? "method_names_to_ignore") [] (Json.texts? 1)⟩

/-- **The settings whose keys have some values**: each setting is read on its own, and it has
its default when there is no value. -/
def Settings.ofValues? (value? : List String → Option Json) : Option Settings := do
  return {
    generate := ← GenerateSettings.ofValues? fun name => value? ["generate", name]
    parse := ← ParseSettings.ofValues? fun name => value? ["parse", name] }

/-- A list of texts is one container. -/
theorem Json.texts?_succ (budget : Nat) : Json.texts? (budget + 1) = Json.texts? 1 := by
  funext value
  cases value <;> rfl

namespace Settings

variable {α β : Type} {x : Option α} {next : α → Option β}

/-- **One setting is read in front of others**: there is a value for it, and the others are
read. -/
theorem bind_eq_some_iff {b : β} : (x >>= next) = some b ↔ ∃ a, x = some a ∧ next a = some b :=
  Option.bind_eq_some_iff

/-- Whether one setting and the others behind it can be read. -/
theorem isSome_bind : (x >>= next).isSome = x.any fun a => (next a).isSome :=
  Option.isSome_bind x next

end Settings

/-- The settings that may be refused are read from the values of their own keys. -/
theorem Settings.refusable_of_ofValues? {value? : List String → Option Json} {settings : Settings}
    (h : ofValues? value? = some settings) :
    Json.setting? (value? ["generate", "indentation"]) "    " Json.text?
        = some settings.generate.indentation
      ∧ Json.setting? (value? ["generate", "test_class_name_prefix_if_file_exists"]) "Ddt"
          Json.text?
        = some settings.generate.testClassNamePrefixIfFileExists
      ∧ Json.setting? (value? ["generate", "default_namespace"]) "DevelopmentDrivenTesting"
          Json.text?
        = some settings.generate.defaultNamespace := by
  unfold ofValues? GenerateSettings.ofValues? at h
  -- from the outside in, as the other way round each setting would double the work
  simp only [↓bind_eq_some_iff, Option.pure_def, Option.some.injEq] at h
  grind

namespace Json

/-- The members of a table have texts for names. -/
theorem IsTable.exists_record {members : List (Option String × Json)} (h : IsTable members) :
    ∃ named : List (String × Json), .object members = record named
      ∧ (named.map Prod.fst).Nodup
      ∧ ∀ name, named.lookup name = members.lookup (some name) := by
  induction members with
  | nil => exact ⟨[], rfl, .nil, fun _ => rfl⟩
  | cons member members ih =>
    obtain ⟨n, v⟩ := member
    obtain ⟨hnodup, hnamed, hvalues⟩ := h
    rw [List.map_cons, List.nodup_cons] at hnodup
    rw [List.map_cons, List.mem_cons, not_or] at hnamed
    obtain ⟨name, rfl⟩ := Option.ne_none_iff_exists'.mp (Ne.symm hnamed.1)
    obtain ⟨named, hrecord, hnames, hlookup⟩ :=
      ih ⟨hnodup.2, hnamed.2, (List.forall_mem_cons.mp hvalues).2⟩
    obtain rfl := Json.object.inj hrecord
    refine ⟨(name, v) :: named, rfl, List.nodup_cons.mpr ⟨fun hmem => hnodup.1 ?_, hnames⟩,
      fun other => ?_⟩
    · obtain ⟨field, hfield, hname⟩ := List.mem_map.mp hmem
      exact List.mem_map.mpr ⟨(some field.1, field.2), List.mem_map_of_mem hfield,
        congrArg some hname⟩
    · rw [List.lookup_cons, List.lookup_cons, ← hlookup]
      by_cases heq : other = name
      · simp [heq]
      · rw [beq_eq_false_iff_ne.mpr heq,
          beq_eq_false_iff_ne.mpr fun hsome => heq (Option.some.inj hsome)]

/-- A name that is kept by a filter is found behind it. -/
theorem lookup_filter {fields : List (String × Json)} {names : List String} {name : String}
    (h : name ∈ names) :
    (fields.filter fun field => names.contains field.1).lookup name = fields.lookup name := by
  induction fields with
  | nil => rfl
  | cons field fields ih =>
    obtain ⟨n, v⟩ := field
    rw [List.lookup_cons, List.filter_cons]
    by_cases heq : name = n
    · subst heq
      rw [if_pos (List.contains_iff_mem.mpr h), List.lookup_cons]
      simp
    · rw [beq_eq_false_iff_ne.mpr heq]
      by_cases hn : names.contains n = true
      · rw [if_pos hn, List.lookup_cons, beq_eq_false_iff_ne.mpr heq]
        exact ih
      · rw [if_neg hn]
        exact ih

/-- **The fields of a table are its members**, when it is read with some names. -/
theorem IsTable.exists_fields? {members : List (Option String × Json)} (h : IsTable members)
    (names : List String) :
    ∃ fields, (Json.object members).fields? names = some fields
      ∧ ∀ name ∈ names, fields.lookup name = members.lookup (some name) := by
  obtain ⟨named, hrecord, hnodup, hlookup⟩ := h.exists_record
  have hmembers : (named.map fun field => (some field.1, field.2)).mapM
      (fun (member : Option String × Json) => member.1.map (·, member.2)) = some named :=
    mapM_map_of_forall fun _ _ => rfl
  refine ⟨named.filter fun field => names.contains field.1, ?_, fun name hname => ?_⟩
  · rw [hrecord, record, fields?, hmembers, Option.bind_eq_bind, Option.bind_some]
    exact if_pos (hnodup.sublist (List.filter_sublist.map _))
  · rw [lookup_filter hname, hlookup]

end Json

/-! ## Settings from layers -/

section

variable {members : List (Option String × Json)} {json : Json}

theorem GenerateSettings.ofJson?_eq_ofValues? (h : IsTable members) (budget : Nat) :
    ofJson? (budget + 2) (.object members)
      = ofValues? fun name => members.lookup (some name) := by
  obtain ⟨fields, hfields, hlookup⟩ := h.exists_fields? fieldNames
  simp only [fieldNames, List.forall_mem_cons] at hlookup
  rw [ofJson?, hfields, Option.bind_eq_bind, Option.bind_some]
  simp only [Json.texts?_succ, Json.Fields.optional?, hlookup]
  rfl

theorem ParseSettings.ofJson?_eq_ofValues? (h : IsTable members) (budget : Nat) :
    ofJson? (budget + 2) (.object members)
      = ofValues? fun name => members.lookup (some name) := by
  obtain ⟨fields, hfields, hlookup⟩ := h.exists_fields? fieldNames
  simp only [fieldNames, List.forall_mem_cons] at hlookup
  rw [ofJson?, hfields, Option.bind_eq_bind, Option.bind_some]
  simp only [Json.texts?_succ, Json.Fields.optional?, hlookup]
  rfl

/-- A group of settings is read from the values of its settings, when it is a table and each
table is read from the values in it. -/
theorem optional?_group {α : Type} {fields : Json.Fields} {group : String} {absent : α}
    {read : Json → Option α} {ofValues? : (String → Option Json) → Option α}
    (hlookup : fields.lookup group = members.lookup (some group)) (htable : IsTable members)
    (hgroup : ∀ inner, members.lookup (some group) = some inner → ∃ inside, inner = .object inside)
    (hnone : ofValues? (fun _ => none) = some absent)
    (hread : ∀ inside, IsTable inside →
      read (.object inside) = ofValues? fun name => inside.lookup (some name)) :
    fields.optional? group absent read
      = ofValues? fun name => at? [group, name] (.object members) := by
  rw [Json.Fields.optional?, hlookup]
  cases hvalue : members.lookup (some group) with
  | none =>
    have hvalues : (fun name => at? [group, name] (.object members)) = fun _ => none :=
      funext fun name => by rw [at?, hvalue, Option.bind_none]
    rw [hvalues, hnone]
  | some value =>
    obtain ⟨inside, rfl⟩ := hgroup value hvalue
    have hvalues : (fun name => at? [group, name] (.object members))
        = fun name => inside.lookup (some name) :=
      funext fun name => by
        rw [at?, hvalue, Option.bind_some, at?]
        cases inside.lookup (some name) <;> rfl
    rw [hvalues]
    exact hread inside (Json.isToml_object_iff.mp (htable.lookup hvalue))

/-- **Settings are read key by key** from a layer that leads to all of them. -/
theorem Settings.ofJson?_eq_ofValues? (htoml : IsToml json)
    (hleads : ∀ entry ∈ types, Leads entry.1 json) (budget : Nat) :
    ofJson? (budget + 3) json = ofValues? fun key => at? key json := by
  obtain ⟨members, rfl, hgenerate⟩ := hleads (["generate", "indentation"], .text) (by decide)
  obtain ⟨members', hmembers, hparse⟩ :=
    hleads (["parse", "method_names_to_ignore"], .texts) (by decide)
  obtain rfl := Json.object.inj hmembers
  have htable := Json.isToml_object_iff.mp htoml
  obtain ⟨fields, hfields, hlookup⟩ := htable.exists_fields? fieldNames
  have hgenerate : fields.optional? "generate" {} (fun value =>
      GenerateSettings.ofJson? (budget + 2) (firstItems GenerateSettings.fieldNames.length value))
      = GenerateSettings.ofValues? fun name => at? ["generate", name] (.object members) :=
    optional?_group (hlookup "generate" (by decide)) htable
      (fun inner hinner => (hgenerate inner hinner).imp fun _ h => h.1) rfl
      fun inside hinside => GenerateSettings.ofJson?_eq_ofValues? hinside budget
  have hparse : fields.optional? "parse" {} (fun value =>
      ParseSettings.ofJson? (budget + 2) (firstItems ParseSettings.fieldNames.length value))
      = ParseSettings.ofValues? fun name => at? ["parse", name] (.object members) :=
    optional?_group (hlookup "parse" (by decide)) htable
      (fun inner hinner => (hparse inner hinner).imp fun _ h => h.1) rfl
      fun inside hinside => ParseSettings.ofJson?_eq_ofValues? hinside budget
  rw [ofJson?, hfields, Option.bind_eq_bind, Option.bind_some, hgenerate, hparse]
  rfl

/-- Only the values of the settings count. -/
theorem Settings.ofValues?_congr {value? other? : List String → Option Json}
    (h : ∀ entry ∈ types, value? entry.1 = other? entry.1) :
    ofValues? value? = ofValues? other? := by
  simp only [types, List.forall_mem_cons] at h
  simp only [ofValues?, GenerateSettings.ofValues?, ParseSettings.ofValues?, h]

end

/-! ## Settings that can be read -/

namespace SettingType

variable {value : Json}

theorem exists_text_of_isText (h : value.isText = true) : ∃ text, value = .text text := by
  unfold Json.isText at h
  split at h
  · exact ⟨_, rfl⟩
  · cases h

theorem isSome_text? (h : text.holds value = true) : value.text?.isSome = true := by
  obtain ⟨text, rfl⟩ := exists_text_of_isText h
  rfl

theorem isSome_nullable? (h : text.holds value = true) :
    (Json.nullable? Json.text? value).isSome = true := by
  obtain ⟨text, rfl⟩ := exists_text_of_isText h
  rfl

theorem isSome_bool? (h : truth.holds value = true) : value.bool?.isSome = true := by
  cases value with
  | bool value => rfl
  | null | natural _ | number _ | string _ | array _ | object _ => cases h

theorem isSome_policy? (h : policy.holds value = true) :
    (Nullability.ofJson? value).isSome = true := by
  cases value with
  | string name =>
    cases name with
    | none => cases h
    | some name => exact h
  | null | bool _ | natural _ | number _ | array _ | object _ => cases h

/-- A list of texts is read. -/
theorem isSome_texts? (h : texts.holds value = true) : (Json.texts? 1 value).isSome = true := by
  cases value with
  | array items =>
    have hitems : ∀ item ∈ items, Json.isText item = true := List.all_eq_true.mp h
    show (items.mapM Json.text?).isSome = true
    induction items with
    | nil => rfl
    | cons item items ih =>
      obtain ⟨hitem, hitems⟩ := List.forall_mem_cons.mp hitems
      obtain ⟨first, hfirst⟩ := Option.isSome_iff_exists.mp (isSome_text? hitem)
      obtain ⟨rest, hrest⟩ :=
        Option.isSome_iff_exists.mp (ih (List.all_eq_true.mpr hitems) hitems)
      rw [List.mapM_cons, hfirst, hrest]
      rfl
  | null | bool _ | natural _ | number _ | string _ | object _ => cases h

end SettingType

section

variable {value? : List String → Option Json}
  (h : ∀ entry ∈ Settings.types, (value? entry.1).all entry.2.holds = true)
include h

/-- **A setting is read** when the values are of the types of the settings, whichever setting it
is and whatever its default. -/
theorem Settings.isSome_setting? {α : Type} {type : SettingType} {read : Json → Option α}
    (hread : ∀ {value}, type.holds value = true → (read value).isSome = true) {key : List String}
    {absent : α} (hkey : (key, type) ∈ types) :
    (Json.setting? (value? key) absent read).isSome = true := by
  have htype : (value? key).all type.holds = true := h _ hkey
  cases hvalue : value? key with
  | none => rfl
  | some value =>
    rw [hvalue] at htype
    exact hread htype

/-- **Values of the types of the settings make settings.** -/
theorem Settings.exists_ofValues? : ∃ settings, ofValues? value? = some settings := by
  have htext := @isSome_setting? _ h _ _ _ SettingType.isSome_text?
  have htruth := @isSome_setting? _ h _ _ _ SettingType.isSome_bool?
  have htexts := @isSome_setting? _ h _ _ _ SettingType.isSome_texts?
  have hpolicy := @isSome_setting? _ h _ _ _ SettingType.isSome_policy?
  have hnullable := @isSome_setting? _ h _ _ _ SettingType.isSome_nullable?
  rw [← Option.isSome_iff_exists]
  unfold ofValues? GenerateSettings.ofValues? ParseSettings.ofValues?
  simp (disch := decide) only [↓isSome_bind, Option.any_true, Option.pure_def,
    Option.isSome_some, htext, htruth, htexts, hpolicy, hnullable]

end

end TestScaffold
