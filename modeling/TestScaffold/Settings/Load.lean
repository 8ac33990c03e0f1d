import TestScaffold.Settings.DotEnv
import TestScaffold.Settings.Json
import TestScaffold.Toml.Reader
import TestScaffold.Workspace.Directory
/-!
# Loading the settings

The settings are put together from four layers, the lowest one first: the file of
the user, the file of the project, a file that is asked for, and the environment.
What no layer says has its default. The first two files may be missing; the one
that is asked for has to be there.

Only the settings as a whole are validated, so that a value that would be refused
does no harm when a higher layer replaces it.
-/

namespace TestScaffold

/-- Why the settings cannot be loaded. -/
inductive SettingsError where
  /-- A file cannot be read. -/
  | unreadableFile (path : String) (cause : FileError)
  /-- A file is no TOML document. -/
  | malformedFile (path : String)
  /-- A value is of the wrong type. -/
  | wrongType
  /-- A value is refused. -/
  | invalid (setting : InvalidSetting)
deriving DecidableEq, Repr

/-- The name of a file with settings behind what is wrong with it. -/
def inSettingsFile (path : String) : String :=
  "\n in " ++ path ++ " TOML file"

/-- What is wrong and what caused it, in words. -/
def SettingsError.message : SettingsError → String
  | unreadableFile path cause =>
    let complaint := cause.message ++ inSettingsFile path
    "Configuration error: " ++ complaint ++ ": " ++ complaint
  | malformedFile path => "Configuration error: TOML parse error" ++ inSettingsFile path
  | wrongType => "Configuration error: invalid type"
  | invalid setting => setting.message

namespace Settings

/-- The path of the settings of a project. -/
def projectFile : String :=
  ".ddt/config.toml"

/-- The path of the file with environment variables. -/
def environmentFile : String :=
  ".env"

/-- The layer in a file. -/
def fileLayer (d : Directory) (path : String) : Except SettingsError Json :=
  match d.readText path with
  | .error cause => .error (.unreadableFile path cause)
  | .ok text =>
    match Toml.parse? text with
    | some layer => .ok layer
    | none => .error (.malformedFile path)

/-- The layer in a file that may be missing. -/
def optionalFileLayer (d : Directory) (path : String) : Except SettingsError Json :=
  if d.hasFile path then fileLayer d path else .ok (.object [])

/-- The layers of the settings, the lowest one first. -/
def layers (d : Directory) (environment : Environment) (userFile : String)
    (file : Option String) : Except SettingsError (List Json) := do
  let user ← optionalFileLayer d userFile
  let project ← optionalFileLayer d projectFile
  let extra ← match file with
    | some path => fileLayer d path
    | none => .ok (.object [])
  return [user, project, extra, environment.layer]

/-- The settings that some layers stand for. -/
def ofLayers (layers : List Json) : Except SettingsError Settings :=
  match ofJson? Json.nestingLimit (Json.overlay layers) with
  | none => .error .wrongType
  | some settings =>
    match settings.generate.invalid? with
    | some setting => .error (.invalid setting)
    | none => .ok settings

/-- Load the settings. -/
def load (d : Directory) (environment : Environment) (userFile : String)
    (file : Option String) : Except SettingsError Settings := do
  ofLayers (← layers d environment userFile file)

/-- The environment with the variables of the environment file. -/
def withEnvironmentFile (d : Directory) (environment : Environment) : Environment :=
  match d.find environmentFile with
  | .ok (.file bytes) => DotEnv.load environment bytes
  | _ => environment

end Settings

end TestScaffold
