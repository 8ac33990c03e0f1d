import TestScaffold.Text.Blank
import TestScaffold.Workspace.Directory
/-!
# The folders of the user

A user keeps files that count in every project: the settings of the program, and an
ignore file for all repositories. Where the ignore file is can be said by a line

    excludesFile = path

in one of two files, that in the home folder first. Case and blanks do not matter,
and the path may stand in quotes and begin at the home folder, written `~`. The
home folder is known by its whole path, so a `~` behind other text leads nowhere.
-/

namespace TestScaffold

/-- The folders of the user. -/
structure UserFolders where
  /-- The folder with the configuration files. -/
  config : String
  /-- The home folder, if it is known. -/
  home : Option String := none
deriving DecidableEq, Repr

/-! ## Naming the ignore file -/

namespace ExcludesFile

/-- Whether a byte is a blank. -/
def isBlank (b : UInt8) : Bool :=
  b == 32 || 9 ≤ b && b ≤ 13

/-- A text without the blanks at its beginning, line feeds included. -/
def skipBlanks (text : List UInt8) : List UInt8 :=
  text.dropWhile isBlank

/-- The rest of a line behind the blanks at its beginning. -/
def skipInLine (text : List UInt8) : List UInt8 :=
  text.dropWhile fun b => isBlank b && b != 10

/-- Whether only blanks are left of a line. -/
def isLineEnd (text : List UInt8) : Bool :=
  match skipInLine text with
  | [] => true
  | b :: _ => b == 10

/-- Whether at most a quote is left of a line. -/
def isQuoteAtLineEnd (text : List UInt8) : Bool :=
  isLineEnd text
    || match skipInLine text with
      | b :: rest => b == 34 && isLineEnd rest
      | [] => false

/-- The word at the beginning of a text, when the line ends behind it. A quote at its
end does not count. -/
def word? (text : List UInt8) : Option (List UInt8) :=
  let word := text.takeWhile (!isBlank ·)
  let rest := text.drop word.length
  if 1 < word.length ∧ word.getLast? = some 34 ∧ isLineEnd rest then some word.dropLast
  else if !word.isEmpty && isQuoteAtLineEnd rest then some word
  else none

/-- The value behind an equals sign. A quote in front does not count. -/
def value? (text : List UInt8) : Option (List UInt8) :=
  match skipBlanks text with
  | b :: rest =>
    if b = 34 then word? (skipBlanks rest) <|> word? (b :: rest) else word? (b :: rest)
  | [] => none

/-- A letter in lower case. -/
def toLower (b : UInt8) : UInt8 :=
  if 65 ≤ b && b ≤ 90 then b + 32 else b

/-- The name of the setting. -/
def settingName : List UInt8 :=
  Text.encode "excludesfile"

/-- The value of the setting, when it stands at the beginning of a text. -/
def settingHere? (text : List UInt8) : Option (List UInt8) :=
  let text := skipBlanks text
  if (text.take settingName.length).map toLower = settingName then
    match skipBlanks (text.drop settingName.length) with
    | b :: rest => if b = 61 then value? rest else none
    | [] => none
  else none

/-- The value of the setting in the first line that has one. -/
def setting? (atLineStart : Bool) : List UInt8 → Option (List UInt8)
  | [] => none
  | b :: rest =>
    (if atLineStart then settingHere? (b :: rest) else none) <|> setting? (b == 10) rest

/-- The path that a configuration file gives. -/
def ofFile? (bytes : List UInt8) : Option String :=
  (setting? true bytes).bind Text.decode?

end ExcludesFile

namespace UserFolders

/-- The path of the settings of the user. -/
def settingsFile (user : UserFolders) : String :=
  joinPath user.config "ddt/config.toml"

/-- The path of the ignore file that a configuration file names. -/
def namedIn? (user : UserFolders) (d : Directory) (file : String) : Option String := do
  let path ← ExcludesFile.ofFile? (← (d.readBytes file).toOption)
  match user.home, Text.splitWhere (· == '~') path.toList with
  | none, _ | _, [_] => return path
  | some home, [[], rest] => return home ++ String.ofList rest
  | some _, _ => return ""

/-- The path of the ignore file for all repositories. -/
def ignoreFile (user : UserFolders) (d : Directory) : String :=
  let named := (user.home.bind fun home => user.namedIn? d (joinPath home ".gitconfig"))
    <|> user.namedIn? d (joinPath user.config "git/config")
  named.getD (joinPath user.config "git/ignore")

end UserFolders

end TestScaffold
