/-!
# Options and commands

The commands of the program and the options that each of them has, with what is
said about them in help. Every command shares some options with the place in front
of it.
-/

namespace TestScaffold

/-- The options. -/
inductive Flag where
  | quiet | verbose | config | help | version | source | symbols | noUsings
  | workspace | testProject | manifest
deriving DecidableEq, Repr

/-- What an option does with a value. -/
inductive ValueKind where
  /-- It has none. -/
  | none
  /-- It takes a path, which is not empty. -/
  | path
  /-- It takes any text. -/
  | text
deriving DecidableEq, Repr

namespace Flag

/-- The name of an option behind two hyphens. -/
def longName : Flag → String
  | quiet => "quiet"
  | verbose => "verbose"
  | config => "config"
  | help => "help"
  | version => "version"
  | source => "source"
  | symbols => "symbols"
  | noUsings => "no-usings"
  | workspace => "workspace"
  | testProject => "test-project"
  | manifest => "manifest"

/-- The letter of an option behind one hyphen. -/
def letter? : Flag → Option Char
  | quiet => some 'q'
  | verbose => some 'v'
  | config => some 'c'
  | help => some 'h'
  | version => some 'V'
  | source => some 's'
  | symbols => none
  | noUsings => none
  | workspace => some 'w'
  | testProject => some 't'
  | manifest => some 'm'

/-- What an option does with a value. -/
def valueKind : Flag → ValueKind
  | config | source | symbols | workspace | manifest => .path
  | testProject => .text
  | quiet | verbose | help | version | noUsings => .none

/-- The name for the value of an option. -/
def valueName? : Flag → Option String
  | config => some "CONFIG"
  | source => some "SOURCE"
  | symbols => some "SYMBOLS"
  | workspace => some "WORKSPACE"
  | testProject => some "TEST_PROJECT"
  | manifest => some "MANIFEST"
  | quiet | verbose | help | version | noUsings => none

/-- What an option is for. -/
def description : Flag → String
  | quiet => "Quiet mode (suppress informational output)"
  | verbose => "Verbose mode (debug logging)"
  | config => "Extra TOML config file, layered above `.ddt/config.toml`"
  | help => "Print help"
  | version => "Print version"
  | source => "C# source file"
  | symbols => "JSON array of document symbols for the source file"
  | noUsings => "Omit usings and namespace declarations"
  | workspace => "Workspace directory searched for `*.csproj` files"
  | testProject => "Test project name (defaults to the first test project found)"
  | manifest =>
    "JSON array of `\x7b\"source\", \"symbols\"\x7d` entries; "
      ++ "relative paths resolve against the manifest's directory"

/-- Whether a command that has an option cannot do without it. -/
def isRequired : Flag → Bool
  | source | symbols | workspace | manifest => true
  | quiet | verbose | config | help | version | noUsings | testProject => false

/-- The options that may stand in front of a command as well as behind it. -/
def shared : List Flag :=
  [quiet, verbose, config]

end Flag

/-- The names of the commands. -/
inductive CommandName where
  | parse | generate | write | writeProject
deriving DecidableEq, Repr

namespace CommandName

/-- All commands. -/
def all : List CommandName :=
  [parse, generate, write, writeProject]

/-- The word for a command. -/
def word : CommandName → String
  | parse => "parse"
  | generate => "generate"
  | write => "write"
  | writeProject => "write-project"

/-- What a command does. -/
def description : CommandName → String
  | parse => "Parse a C# document and print its class model as JSON"
  | generate => "Print xUnit test classes for a C# document"
  | write => "Write xUnit test classes into a test project of a workspace"
  | writeProject => "Write xUnit test classes for every document listed in a manifest"

/-- The command of a word. -/
def ofWord? (word : String) : Option CommandName :=
  all.find? fun name => name.word == word

/-- The options of a command. -/
def flags : CommandName → List Flag
  | parse => [.source, .symbols]
  | generate => [.source, .symbols, .noUsings]
  | write => [.source, .symbols, .workspace, .testProject]
  | writeProject => [.manifest, .workspace, .testProject]

end CommandName

/-- The place of an option: in front of the command or behind it. -/
abbrev Place := Option CommandName

namespace Place

/-- The options that only a place has. -/
def ownFlags : Place → List Flag
  | none => []
  | some name => name.flags

/-- The options that ask about a place. -/
def questions : Place → List Flag
  | none => [.help, .version]
  | some _ => [.help]

/-- The options of a place. -/
def flags (place : Place) : List Flag :=
  place.ownFlags ++ Flag.shared ++ place.questions

end Place

end TestScaffold
