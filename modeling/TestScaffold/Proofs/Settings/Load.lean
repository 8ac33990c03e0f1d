import TestScaffold.Proofs.Settings.Environment
import TestScaffold.Proofs.Settings.Values
import TestScaffold.Proofs.Toml.Tables
/-!
# Settings are loaded key by key

Each setting is loaded on its own: it has the value of the highest layer that has one for its
key, or else its default (`load_eq_validated`). Where other settings come from does not matter
for it, nor what lower layers say about it, and only the settings that come out are validated.

The highest layers are the variables of the environment file, for they stand behind all others
and are new to the environment. When none of them has the key of a variable that was there
before, it does not matter which come first. When one has, under another spelling, the file
stands over the variable that was there (`file_over_real_respelledFolder`).
-/

namespace TestScaffold

open Json (IsToml Leads at? topmost?)

/-! ## Layers that are loaded -/

/-- What comes to a value succeeds with it. -/
theorem eq_ok_of_toOption {ε α : Type} {result : Except ε α} {a : α}
    (h : result.toOption = some a) : result = .ok a := by
  cases result with
  | error cause => cases h
  | ok b => exact congrArg _ (Option.some.inj h)

namespace Settings

variable {d : Directory} {path : String} {layer : Json}

/-- The layer in the file that is asked for, if one is. -/
def explicitLayer (d : Directory) : Option String → Except SettingsError Json
  | some path => fileLayer d path
  | none => .ok (.object [])

/-- **The layer in a file is a table.** -/
theorem exists_of_fileLayer (h : fileLayer d path = .ok layer) :
    IsToml layer ∧ ∃ members, layer = .object members := by
  unfold fileLayer at h
  split at h
  · cases h
  · split at h
    · rename_i hparse
      cases h
      exact Toml.exists_of_parse? hparse
    · cases h

theorem exists_of_optionalFileLayer (h : optionalFileLayer d path = .ok layer) :
    IsToml layer ∧ ∃ members, layer = .object members := by
  unfold optionalFileLayer at h
  split at h
  · exact exists_of_fileLayer h
  · cases h
    exact ⟨Json.isToml_object_iff.mpr Json.isTable_nil, [], rfl⟩

theorem exists_of_explicitLayer {file : Option String} (h : explicitLayer d file = .ok layer) :
    IsToml layer ∧ ∃ members, layer = .object members := by
  cases file with
  | some path => exact exists_of_fileLayer h
  | none =>
    cases h
    exact ⟨Json.isToml_object_iff.mpr Json.isTable_nil, [], rfl⟩

/-- The layers are those of the files and that of the environment. -/
theorem layers_eq_ok {environment : Environment} {userFile : String} {file : Option String}
    {user project extra : Json} (huser : optionalFileLayer d userFile = .ok user)
    (hproject : optionalFileLayer d projectFile = .ok project)
    (hextra : explicitLayer d file = .ok extra) :
    layers d environment userFile file = .ok [user, project, extra, environment.layer] := by
  unfold layers
  cases file with
  | none =>
    cases hextra
    rw [huser, hproject]
    rfl
  | some path =>
    have hfile : fileLayer d path = .ok extra := hextra
    simp only [huser, hproject, hfile]
    rfl

/-- Only valid settings are loaded. -/
theorem invalid?_eq_none_of_load {environment : Environment} {userFile : String}
    {file : Option String} {settings : Settings}
    (h : load d environment userFile file = .ok settings) :
    settings.generate.invalid? = none := by
  unfold load at h
  cases hlayers : layers d environment userFile file with
  | error cause =>
    rw [hlayers] at h
    cases h
  | ok layers =>
    rw [hlayers] at h
    simp only [bind, Except.bind, ofLayers] at h
    split at h
    · cases h
    split at h
    · cases h
    · cases h
      assumption

/-- **A layer that settings are read from**: it is a table that leads to every setting, to a
value of its type. -/
structure Readable (layer : Json) : Prop where
  /-- It is a layer. -/
  isToml : IsToml layer
  /-- It leads to every setting. -/
  leads : ∀ entry ∈ types, Leads entry.1 layer
  /-- Settings are of their types. -/
  typed : ∀ entry ∈ types, (at? entry.1 layer).all entry.2.holds = true

theorem WellTyped.readable (h : WellTyped layer)
    (htable : IsToml layer ∧ ∃ members, layer = .object members) : Readable layer :=
  ⟨htable.1, fun _ hentry => h.leads htable.2 hentry, h.settings⟩

/-- The value of the highest layer is one of a layer. -/
theorem all_topmost? {key : List String} {holds : Json → Bool} {layers : List Json}
    (h : ∀ layer ∈ layers, (at? key layer).all holds = true) :
    (topmost? key layers).all holds = true := by
  induction layers using List.reverseRecOn with
  | nil => rfl
  | append_singleton layers layer ih =>
    obtain ⟨hlayers, hlayer⟩ := List.forall_mem_append.mp h
    have hlast := hlayer layer (.head _)
    rw [Json.topmost?_append]
    cases hvalue : at? key layer with
    | none => simpa [topmost?, hvalue] using ih hlayers
    | some value => simpa [topmost?, hvalue] using hlast

/-- **Readable layers make a readable layer**, which has the value of the highest of them for
each key. -/
theorem readable_overlay {layers : List Json} (h : ∀ layer ∈ layers, Readable layer) :
    Readable (Json.overlay layers)
      ∧ ∀ entry ∈ types, at? entry.1 (Json.overlay layers) = topmost? entry.1 layers := by
  have hover : ∀ entry ∈ types, at? entry.1 (Json.overlay layers) = topmost? entry.1 layers
      ∧ Leads entry.1 (Json.overlay layers) := by
    intro entry hentry
    obtain ⟨group, -, name, hkey⟩ := exists_of_mem_types hentry
    have hleads : ∀ layer ∈ layers, Leads entry.1 layer :=
      fun layer hlayer => (h layer hlayer).leads entry hentry
    rw [hkey] at hleads ⊢
    exact Json.at?_overlay (fun layer hlayer => (h layer hlayer).isToml) hleads
  refine ⟨⟨Json.isToml_overlay fun layer hlayer => (h layer hlayer).isToml,
    fun entry hentry => (hover entry hentry).2, fun entry hentry => ?_⟩,
    fun entry hentry => (hover entry hentry).1⟩
  rw [(hover entry hentry).1]
  exact all_topmost? fun layer hlayer => (h layer hlayer).typed entry hentry

/-- **Readable layers are loaded key by key**: each setting has the value of the highest layer
that has one for its key, and what comes out is validated. -/
theorem ofLayers_eq {layers : List Json} (h : ∀ layer ∈ layers, Readable layer) :
    ∃ settings, ofValues? (fun key => topmost? key layers) = some settings
      ∧ ofLayers layers = match settings.generate.validate with
        | .ok () => .ok settings
        | .error setting => .error (.invalid setting) := by
  obtain ⟨hreadable, hvalues⟩ := readable_overlay h
  obtain ⟨settings, hsettings⟩ :=
    @exists_ofValues? (fun key => at? key (Json.overlay layers)) hreadable.typed
  have hread : ofJson? Json.nestingLimit (Json.overlay layers) = some settings :=
    (ofJson?_eq_ofValues? hreadable.isToml hreadable.leads 124).trans hsettings
  refine ⟨settings, (ofValues?_congr hvalues).symm.trans hsettings, ?_⟩
  unfold ofLayers GenerateSettings.validate
  rw [hread]
  dsimp only
  cases settings.generate.invalid? <;> rfl

/-- **Settings are loaded key by key.** When the file of the user, the file of the project, the
file that is asked for and each variable that holds a setting are well typed, each setting has
the value of the highest of these layers that has one for its key, or else its default. The
highest are the variables that the environment file adds, whose names are new to the
environment; below them are the variables that were there, the file that is asked for, the
file of the project and the file of the user. For a key that no added variable has, or none
that was there, the variables that were there may as well be the highest. The settings that
come out this way are loaded exactly when they are valid. -/
theorem load_eq_validated {d : Directory} {environment : Environment} {userFile : String}
    {file : Option String} {user project extra : Json}
    (huser : optionalFileLayer d userFile = .ok user)
    (hproject : optionalFileLayer d projectFile = .ok project)
    (hextra : explicitLayer d file = .ok extra)
    (htyped : ∀ layer ∈ [user, project, extra]
      ++ (withEnvironmentFile d environment).variableLayers, WellTyped layer) :
    ∃ added, withEnvironmentFile d environment = environment ++ added
      ∧ (∀ entry ∈ added, environment.lookup entry.1 = none)
      ∧ let fromFile key := topmost? key (Environment.variableLayers added)
        let real key := topmost? key environment.variableLayers
        let below key := at? key extra <|> at? key project <|> at? key user
        let value? key := fromFile key <|> real key <|> below key
        (∀ key, fromFile key = none ∨ real key = none →
          value? key = (real key <|> fromFile key <|> below key))
        ∧ ∃ settings, ofValues? value? = some settings
          ∧ load d (withEnvironmentFile d environment) userFile file
            = match settings.generate.validate with
              | .ok () => .ok settings
              | .error setting => .error (.invalid setting) := by
  obtain ⟨added, hadded, hnew⟩ := exists_withEnvironmentFile d environment
  refine ⟨added, hadded, hnew, ?_⟩
  intro fromFile real below value?
  obtain ⟨hfiles, hvariables⟩ := List.forall_mem_append.mp htyped
  obtain ⟨huserTyped, hprojectTyped, hextraTyped, -⟩ := by
    simpa only [List.forall_mem_cons] using hfiles
  have hreadable := readable_overlay fun layer hlayer =>
    (hvariables layer hlayer).readable (Environment.exists_of_mem_variableLayers hlayer)
  have hall : ∀ layer ∈ [user, project, extra, (withEnvironmentFile d environment).layer],
      Readable layer := by
    simp only [List.forall_mem_cons]
    exact ⟨huserTyped.readable (exists_of_optionalFileLayer huser),
      hprojectTyped.readable (exists_of_optionalFileLayer hproject),
      hextraTyped.readable (exists_of_explicitLayer hextra), hreadable.1, List.forall_mem_nil _⟩
  have hvalues : ∀ entry ∈ types, value? entry.1
      = topmost? entry.1 [user, project, extra, (withEnvironmentFile d environment).layer] := by
    intro entry hentry
    have henvironment := hreadable.2 entry hentry
    rw [← Environment.layer_eq_overlay, hadded, Environment.variableLayers_append,
      Json.topmost?_append, ← hadded] at henvironment
    simp [value?, fromFile, real, below, topmost?, henvironment, Option.or_assoc]
  obtain ⟨settings, hsettings, hload⟩ := ofLayers_eq hall
  refine ⟨fun key hkey => ?_, settings, (ofValues?_congr hvalues).trans hsettings, ?_⟩
  · rcases hkey with hnone | hnone <;> simp [value?, hnone]
  · unfold load
    rw [layers_eq_ok huser hproject hextra]
    exact hload

/-! ## A value that is refused but replaced -/

theorem exists_eq_ok_of_toOption {ε α : Type} {result : Except ε α} {p : α → Prop}
    (h : ∃ a ∈ result.toOption, p a) : ∃ a, result = .ok a ∧ p a :=
  h.imp fun _ ha => ⟨eq_ok_of_toOption ha.1, ha.2⟩

/-- A folder with settings in every place: the project asks for an indentation that would be
refused, and the environment file for another one. -/
def layeredFolder : Directory :=
  ⟨[(["user.toml"], .file (Text.encode "[generate]\nwarnings_to_disable = [\"A\"]\n")),
    ([".ddt"], .folder),
    ([".ddt", "config.toml"], .file (Text.encode "[generate]\nindentation = \"x\"\n")),
    (["more.toml"], .file (Text.encode "[generate]\ndefault_namespace = \"More\"\n")),
    ([".env"], .file (Text.encode "DDT_GENERATE__INDENTATION=\"'\t'\"\n"))]⟩

/-- The variables there before the environment file is read. -/
def layeredEnvironment : Environment :=
  [("ddt_generate__use_only_new_operator", "true")]

/-- The variables that the environment file adds. -/
def addedEnvironment : Environment :=
  [("DDT_GENERATE__INDENTATION", "'\t'")]

theorem withEnvironmentFile_layeredFolder :
    withEnvironmentFile layeredFolder layeredEnvironment
      = layeredEnvironment ++ addedEnvironment := by
  decide +kernel

/-- The files of this folder: all of them are well typed, none has a test class prefix, the
file of the project has the bad indentation and the file that is asked for a namespace. -/
theorem exists_layers_layeredFolder :
    ∃ user project extra,
      optionalFileLayer layeredFolder "user.toml" = .ok user
      ∧ optionalFileLayer layeredFolder projectFile = .ok project
      ∧ explicitLayer layeredFolder (some "more.toml") = .ok extra
      ∧ (∀ layer ∈ [user, project, extra], WellTyped layer
        ∧ at? ["generate", "test_class_name_prefix_if_file_exists"] layer = none)
      ∧ (at? ["generate", "indentation"] project).bind Json.text? = some "x"
      ∧ (at? ["generate", "default_namespace"] extra).bind Json.text? = some "More" := by
  have huser : ∃ layer ∈ (optionalFileLayer layeredFolder "user.toml").toOption, WellTyped layer
      ∧ at? ["generate", "test_class_name_prefix_if_file_exists"] layer = none := by
    decide +kernel
  have hproject : ∃ layer ∈ (optionalFileLayer layeredFolder projectFile).toOption,
      (WellTyped layer ∧ at? ["generate", "test_class_name_prefix_if_file_exists"] layer = none)
        ∧ (at? ["generate", "indentation"] layer).bind Json.text? = some "x" := by
    decide +kernel
  have hextra : ∃ layer ∈ (explicitLayer layeredFolder (some "more.toml")).toOption,
      (WellTyped layer ∧ at? ["generate", "test_class_name_prefix_if_file_exists"] layer = none)
        ∧ (at? ["generate", "default_namespace"] layer).bind Json.text? = some "More" := by
    decide +kernel
  obtain ⟨user, huser, huserTyped⟩ := exists_eq_ok_of_toOption huser
  obtain ⟨project, hproject, hprojectTyped, hrefused⟩ := exists_eq_ok_of_toOption hproject
  obtain ⟨extra, hextra, hextraTyped, hmore⟩ := exists_eq_ok_of_toOption hextra
  refine ⟨user, project, extra, huser, hproject, hextra, ?_, hrefused, hmore⟩
  simp only [List.forall_mem_cons]
  exact ⟨huserTyped, hprojectTyped, hextraTyped, List.forall_mem_nil _⟩

/-- The indentation of the project does no harm. -/
theorem load_eq_validated_layeredFolder :
    ∃ project settings,
      optionalFileLayer layeredFolder projectFile = .ok project
      ∧ (at? ["generate", "indentation"] project).bind Json.text? = some "x"
      ∧ load layeredFolder (withEnvironmentFile layeredFolder layeredEnvironment) "user.toml"
          (some "more.toml") = .ok settings
      ∧ settings.generate.indentation = "\t" ∧ settings.generate.defaultNamespace = "More" := by
  obtain ⟨user, project, extra, huser, hproject, hextra, hfiles, hrefused, hmore⟩ :=
    exists_layers_layeredFolder
  have hvariables : ∀ layer ∈ (layeredEnvironment ++ addedEnvironment).variableLayers,
      WellTyped layer := by decide +kernel
  have htyped : ∀ layer ∈ [user, project, extra]
      ++ (withEnvironmentFile layeredFolder layeredEnvironment).variableLayers,
      WellTyped layer := by
    rw [withEnvironmentFile_layeredFolder]
    exact List.forall_mem_append.mpr ⟨fun layer hlayer => (hfiles layer hlayer).1, hvariables⟩
  obtain ⟨added, hadded, -, -, settings, hsettings, hload⟩ :=
    load_eq_validated huser hproject hextra htyped
  rw [withEnvironmentFile_layeredFolder] at hadded
  obtain rfl := List.append_cancel_left hadded
  obtain ⟨hindentation, hprefix, hnamespace⟩ := refusable_of_ofValues? hsettings
  have hreplaced : topmost? ["generate", "indentation"] addedEnvironment.variableLayers
      = some (.text "\t") := rfl
  have hsilent : ∀ key ∈ [["generate", "test_class_name_prefix_if_file_exists"],
      ["generate", "default_namespace"]],
      topmost? key addedEnvironment.variableLayers = none
        ∧ topmost? key layeredEnvironment.variableLayers = none := by decide +kernel
  simp only [List.forall_mem_cons] at hfiles hsilent
  obtain ⟨value, hvalue, hvalueMore⟩ := Option.bind_eq_some_iff.mp hmore
  simp only [Json.setting?, hreplaced, hsilent, hfiles, hvalue]
    at hindentation hprefix hnamespace
  have hindentation : "\t" = settings.generate.indentation := Option.some.inj hindentation
  have hprefix : "Ddt" = settings.generate.testClassNamePrefixIfFileExists :=
    Option.some.inj hprefix
  have hnamespace : "More" = settings.generate.defaultNamespace :=
    Option.some.inj (hvalueMore.symm.trans hnamespace)
  have hvalid : settings.generate.validate = .ok () := by
    unfold GenerateSettings.validate GenerateSettings.invalid?
    rw [← hindentation, ← hprefix, ← hnamespace]
    rfl
  rw [hvalid] at hload
  exact ⟨project, settings, hproject, hrefused, hload, hindentation.symm, hnamespace.symm⟩

/-! ## A variable that is spelled in two ways -/

/-- A folder whose environment file has a namespace. -/
def respelledFolder : Directory :=
  ⟨[([".env"], .file (Text.encode "DDT_GENERATE__DEFAULT_NAMESPACE=File\n"))]⟩

/-- A namespace in the environment, under another spelling. -/
def respelledEnvironment : Environment :=
  [("ddt_generate__default_namespace", "Real")]

theorem withEnvironmentFile_respelledFolder :
    withEnvironmentFile respelledFolder respelledEnvironment
      = respelledEnvironment ++ [("DDT_GENERATE__DEFAULT_NAMESPACE", "File")] := by
  decide +kernel

/-- The variable of the file stands over the one that was there before: both have the key, and
neither replaces the other. -/
theorem file_over_real_respelledFolder :
    (∀ layer ∈ (withEnvironmentFile respelledFolder respelledEnvironment).variableLayers,
      WellTyped layer)
      ∧ topmost? ["generate", "default_namespace"] respelledEnvironment.variableLayers
        = some (.text "Real")
      ∧ (load respelledFolder (withEnvironmentFile respelledFolder respelledEnvironment)
          "user.toml" none).toOption.map (fun settings => settings.generate.defaultNamespace)
        = some "File" := by
  rw [withEnvironmentFile_respelledFolder]
  exact ⟨by decide +kernel, rfl, by decide +kernel⟩

end Settings

end TestScaffold
