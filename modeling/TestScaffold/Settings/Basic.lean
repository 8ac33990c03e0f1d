import TestScaffold.Text.Alphanumeric
import TestScaffold.Text.Blank
/-!
# Settings

The settings say how tests are written (`GenerateSettings`) and which methods of
a document are left out (`ParseSettings`). Every field has a default, so that
any subset of them may be configured.

`GenerateSettings.validate` refuses values that would give broken code; it looks
at three fields in a fixed order and reports the first bad one.
-/

namespace TestScaffold

/-- What becomes of the nullable marks of parameter and return types. -/
inductive Nullability where
  /-- Types stay as they are declared. -/
  | keep
  /-- The marks are removed. -/
  | strip
  /-- The marks are added. -/
  | add
deriving DecidableEq, Repr, Inhabited

/-- The types that take no nullable mark: value types and `void`. -/
def valueTypeNames : List String :=
  ["bool", "Boolean", "byte", "Byte", "char", "Char", "decimal", "Decimal",
    "double", "Double", "float", "int", "Int16", "Int32", "Int64", "IntPtr",
    "long", "nint", "nuint", "sbyte", "SByte", "short", "Single",
    "System.Boolean", "System.Byte", "System.Char", "System.Decimal",
    "System.Double", "System.Int16", "System.Int32", "System.Int64",
    "System.IntPtr", "System.SByte", "System.Single", "System.UInt16",
    "System.UInt32", "System.UInt64", "System.UIntPtr", "uint", "UInt16",
    "UInt32", "UInt64", "UIntPtr", "ulong", "ushort", "void"]

/-- How tests are written. -/
structure GenerateSettings where
  /-- One level of indentation. -/
  indentation : String := "    "
  /-- Whether generic parameters are replaced by `object`. -/
  eraseGenericParameters : Bool := true
  /-- What becomes of nullable marks. -/
  nullability : Nullability := .keep
  /-- The types whose own nullable mark is left alone. -/
  nullabilityExemptTypes : List String := valueTypeNames
  /-- The names that hide an inherited method of the test class. -/
  reservedMethodNames : List String :=
    ["Equals", "GetHashCode", "GetType", "MemberwiseClone", "ToString"]
  /-- What is put in front of the name of a test class whose file exists. -/
  testClassNamePrefixIfFileExists : String := "Ddt"
  /-- The namespace of test classes that can take none from elsewhere. -/
  defaultNamespace : String := "DevelopmentDrivenTesting"
  /-- Whether compiler warnings are switched off around a test class. -/
  disableCompilerWarnings : Bool := false
  /-- The warnings that are switched off. -/
  warningsToDisable : List String :=
    ["CS8632", "IDE0018", "IDE0059", "IDE0090", "xUnit1024"]
  /-- Whether objects are made by `new(...)` instead of `new Type(...)`. -/
  useOnlyNewOperator : Bool := false
  /-- The name of the file for global usings. -/
  usingsFileName : String := "Usings.cs"
  /-- What a new file for global usings holds. -/
  usingsFileContent : String := "global using Xunit;\n"
  /-- The namespace of all test classes, when it is not empty. -/
  targetProjectNamespace : Option String := none
deriving DecidableEq, Repr, Inhabited

/-- What is left out of documents. -/
structure ParseSettings where
  /-- The names of the methods that are left out. -/
  methodNamesToIgnore : List String := []
deriving DecidableEq, Repr, Inhabited

/-- All settings. -/
structure Settings where
  /-- How tests are written. -/
  generate : GenerateSettings := {}
  /-- What is left out of documents. -/
  parse : ParseSettings := {}
deriving DecidableEq, Repr, Inhabited

/-- The values that are refused. -/
inductive InvalidSetting where
  /-- The indentation holds something that is not blank. -/
  | indentation
  /-- The default namespace is blank. -/
  | defaultNamespace
  /-- The test class prefix is no identifier. -/
  | testClassPrefix
deriving DecidableEq, Repr

/-- What is wrong, in words. -/
def InvalidSetting.message : InvalidSetting → String
  | indentation =>
    "Invalid configuration value for 'generate.indentation': "
      ++ "must contain only whitespace"
  | defaultNamespace =>
    "Invalid configuration value for 'generate.default_namespace': must not be empty"
  | testClassPrefix =>
    "Invalid configuration value for 'generate.test_class_name_prefix_if_file_exists': "
      ++ "must be a non-empty identifier"

namespace GenerateSettings

/-- The indentation of a level. -/
def indent (settings : GenerateSettings) (level : Nat) : List Char :=
  (List.replicate level settings.indentation.toList).flatten

/-- Whether a test method of this name needs the `new` modifier. -/
def isReserved (settings : GenerateSettings) (name : String) : Bool :=
  settings.reservedMethodNames.contains name

/-- Whether the nullable mark of a type of this name is left alone. -/
def isExempt (settings : GenerateSettings) (name : String) : Bool :=
  settings.nullabilityExemptTypes.contains name

/-- Whether a character may stand in the test class prefix. -/
def isPrefixChar (c : Char) : Bool :=
  Text.isAlphanumeric c || c == '_'

/-- The first setting with a value that is refused, if there is one. -/
def invalid? (settings : GenerateSettings) : Option InvalidSetting :=
  let classPrefix := settings.testClassNamePrefixIfFileExists.toList
  if !settings.indentation.toList.all Text.isBlank then some .indentation
  else if Text.isBlankText settings.defaultNamespace.toList then some .defaultNamespace
  else if classPrefix.isEmpty || !classPrefix.all isPrefixChar then
    some .testClassPrefix
  else none

/-- The settings, unless one of them is refused. -/
def validate (settings : GenerateSettings) : Except InvalidSetting Unit :=
  match settings.invalid? with
  | some invalid => .error invalid
  | none => .ok ()

end GenerateSettings

end TestScaffold
