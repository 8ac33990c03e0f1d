import TestScaffold.Json.Record
import TestScaffold.Settings.Basic
/-!
# Settings as JSON values

Settings are read from JSON values, whatever text these come from, and written
back to them. Every field may be missing and then has its default; only the
target namespace may be `null`.
-/

namespace TestScaffold

open Json (field)

namespace Nullability

/-- The name of a policy. -/
def name : Nullability → String
  | keep => "none"
  | strip => "strip"
  | add => "add"

/-- The policy with a name. -/
def ofName? (name : String) : Option Nullability :=
  [keep, strip, add].find? fun policy => policy.name == name

/-- Read a policy: its name, or an object that maps its name to `null`. -/
def ofJson? : Json → Option Nullability
  | .string (some name) => ofName? name
  | .object [(some name, .null)] => ofName? name
  | _ => none

end Nullability

namespace GenerateSettings

/-- The names of the settings. -/
def fieldNames : List String :=
  ["indentation", "erase_generic_parameters", "nullability",
    "nullability_exempt_types", "reserved_method_names",
    "test_class_name_prefix_if_file_exists", "default_namespace",
    "disable_compiler_warnings", "warnings_to_disable", "use_only_new_operator",
    "usings_file_name", "usings_file_content", "target_project_namespace"]

/-- Write the settings. -/
def toJson (s : GenerateSettings) : Json :=
  .record (field "indentation" (.text s.indentation)
    ++ field "erase_generic_parameters" (.bool s.eraseGenericParameters)
    ++ field "nullability" (.text s.nullability.name)
    ++ field "nullability_exempt_types" (.texts s.nullabilityExemptTypes)
    ++ field "reserved_method_names" (.texts s.reservedMethodNames)
    ++ field "test_class_name_prefix_if_file_exists"
      (.text s.testClassNamePrefixIfFileExists)
    ++ field "default_namespace" (.text s.defaultNamespace)
    ++ field "disable_compiler_warnings" (.bool s.disableCompilerWarnings)
    ++ field "warnings_to_disable" (.texts s.warningsToDisable)
    ++ field "use_only_new_operator" (.bool s.useOnlyNewOperator)
    ++ field "usings_file_name" (.text s.usingsFileName)
    ++ field "usings_file_content" (.text s.usingsFileContent)
    ++ field "target_project_namespace"
      ((s.targetProjectNamespace.map Json.text).getD .null))

/-- Read the settings. -/
def ofJson? : Nat → Json → Option GenerateSettings
  | 0, _ => none
  | budget + 1, json => do
    let d : GenerateSettings := {}
    let texts? := Json.texts? budget
    let fields ← json.fields? fieldNames
    return {
      indentation := ← fields.optional? "indentation" d.indentation Json.text?
      eraseGenericParameters := ← fields.optional? "erase_generic_parameters"
        d.eraseGenericParameters Json.bool?
      nullability := ← fields.optional? "nullability" d.nullability
        Nullability.ofJson?
      nullabilityExemptTypes := ← fields.optional? "nullability_exempt_types"
        d.nullabilityExemptTypes texts?
      reservedMethodNames := ← fields.optional? "reserved_method_names"
        d.reservedMethodNames texts?
      testClassNamePrefixIfFileExists :=
        ← fields.optional? "test_class_name_prefix_if_file_exists"
          d.testClassNamePrefixIfFileExists Json.text?
      defaultNamespace := ← fields.optional? "default_namespace"
        d.defaultNamespace Json.text?
      disableCompilerWarnings := ← fields.optional? "disable_compiler_warnings"
        d.disableCompilerWarnings Json.bool?
      warningsToDisable := ← fields.optional? "warnings_to_disable"
        d.warningsToDisable texts?
      useOnlyNewOperator := ← fields.optional? "use_only_new_operator"
        d.useOnlyNewOperator Json.bool?
      usingsFileName := ← fields.optional? "usings_file_name"
        d.usingsFileName Json.text?
      usingsFileContent := ← fields.optional? "usings_file_content"
        d.usingsFileContent Json.text?
      targetProjectNamespace := ← fields.optional? "target_project_namespace"
        d.targetProjectNamespace (Json.nullable? Json.text?) }

end GenerateSettings

namespace ParseSettings

/-- The names of the settings. -/
def fieldNames : List String :=
  ["method_names_to_ignore"]

/-- Write the settings. -/
def toJson (s : ParseSettings) : Json :=
  .record (field "method_names_to_ignore" (.texts s.methodNamesToIgnore))

/-- Read the settings. -/
def ofJson? : Nat → Json → Option ParseSettings
  | 0, _ => none
  | budget + 1, json => do
    let fields ← json.fields? fieldNames
    return ⟨← fields.optional? "method_names_to_ignore" [] (Json.texts? budget)⟩

end ParseSettings

namespace Settings

/-- The names of the groups of settings. -/
def fieldNames : List String :=
  ["generate", "parse"]

/-- Write all settings. -/
def toJson (s : Settings) : Json :=
  .record (field "generate" s.generate.toJson ++ field "parse" s.parse.toJson)

/-- A value without the items of a list behind the first `n`: a group of settings
may be given as a list, and what is behind its last setting means nothing. -/
def firstItems (n : Nat) : Json → Json
  | .array items => .array (items.take n)
  | value => value

/-- Read all settings. -/
def ofJson? : Nat → Json → Option Settings
  | 0, _ => none
  | budget + 1, json => do
    let fields ← json.fields? fieldNames
    return {
      generate := ← fields.optional? "generate" {} fun value =>
        GenerateSettings.ofJson? budget
          (firstItems GenerateSettings.fieldNames.length value)
      parse := ← fields.optional? "parse" {} fun value =>
        ParseSettings.ofJson? budget
          (firstItems ParseSettings.fieldNames.length value) }

end Settings

end TestScaffold
