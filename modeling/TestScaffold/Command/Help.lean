import TestScaffold.Command.Flag
/-!
# Help

A page of help says what the program or a command is for, how it is used, and which
commands and options there are. `HelpTopic.page` is the page of a topic.

The commands and options stand in tables of two columns. The descriptions of a table
move below what they describe when the first column is wide and one of them would not
fit beside it.
-/

namespace TestScaffold

/-- What a page of help is about. -/
inductive HelpTopic where
  /-- The program. -/
  | program
  /-- A command. -/
  | command (name : CommandName)
  /-- The command that shows help. -/
  | help
deriving DecidableEq, Repr

/-- The name and the version of the program. -/
def versionText : String :=
  "ddt 0.1.0"

/-! ## Tables -/

/-- A part of a page: a heading, and what it stands over with descriptions. -/
structure HelpTable where
  /-- The heading. -/
  heading : String
  /-- What is described, and its description. -/
  rows : List (String × String)
deriving DecidableEq, Repr

namespace HelpTable

/-- How many characters a line of a page has room for. -/
def lineWidth : Nat :=
  100

/-- The width of the first column. -/
def width (table : HelpTable) : Nat :=
  table.rows.foldl (fun width (term, _) => max width term.length) 0

/-- Whether descriptions stand below what they describe: the first column and what
surrounds it take more than two fifths of a line, and a description is longer than
the rest of the line. -/
def isStacked (table : HelpTable) : Bool :=
  let taken := table.width + 8
  decide (5 * taken > 2 * lineWidth)
    && table.rows.any fun (_, description) => decide (taken + description.length > lineWidth)

/-- The text of a table. -/
def render (table : HelpTable) : String :=
  let space (n : Nat) := String.ofList (List.replicate n ' ')
  let gap (term : String) :=
    if table.isStacked then "\n" ++ space 10 else space (table.width - term.length + 2)
  "\n".intercalate ((table.heading ++ ":") :: table.rows.map fun (term, description) =>
    space 2 ++ term ++ gap term ++ description)

end HelpTable

/-! ## Options -/

namespace Flag

/-- The long name of an option, with the name of its value if it has one. -/
def longForm (flag : Flag) : String :=
  "--" ++ flag.longName ++
    match flag.valueName? with
    | some name => " <" ++ name ++ ">"
    | none => ""

/-- The letter and the long name of an option. An option without a letter leaves room
for one. -/
def form (flag : Flag) : String :=
  (match flag.letter? with
    | some letter => "-" ++ letter.toString ++ ", "
    | none => "    ")
    ++ flag.longForm

/-- What an option is known by first: its letter, or else its long name. -/
def firstName (flag : Flag) : String :=
  match flag.letter? with
  | some letter => letter.toString
  | none => flag.longName

end Flag

/-- The options of a place as they are listed. The options that only this place has and
the shared ones are numbered apart; they are listed by number, and options of one number
by name. Behind them all stand the options that ask about the place. -/
def Place.listedFlags (place : Place) : List Flag :=
  let numbered := place.ownFlags.zipIdx ++ Flag.shared.zipIdx
  let sorted := numbered.mergeSort fun (a, i) (b, j) =>
    decide (i < j) || (i == j && decide (a.firstName ≤ b.firstName))
  sorted.map (·.1) ++ place.questions

/-! ## Pages -/

namespace HelpTopic

/-- The word for the command that shows help. -/
def helpWord : String :=
  "help"

/-- The topic of a word: a command, the one that shows help included. -/
def ofWord? (word : String) : Option HelpTopic :=
  if word == helpWord then some help else (CommandName.ofWord? word).map command

/-- The topic of a place: the program, or the command that the options stand behind. -/
def ofPlace : Place → HelpTopic
  | none => program
  | some name => command name

/-- What a topic is for. -/
def description : HelpTopic → String
  | program => "Development-driven testing: xUnit test skeletons from C# declarations"
  | command name => name.description
  | help => "Print this message or the help of the given subcommand(s)"

/-- How a topic is used. -/
def usage : HelpTopic → String
  | program => "ddt [OPTIONS] <COMMAND>"
  | command name =>
    " ".intercalate ("ddt" :: name.word :: "[OPTIONS]"
      :: (name.flags.filter (·.isRequired)).map (·.longForm))
  | help => "ddt help [COMMAND]..."

/-- The table of all commands. -/
def commandTable : HelpTable where
  heading := "Commands"
  rows := CommandName.all.map (fun name => (name.word, name.description))
    ++ [(helpWord, help.description)]

/-- The table of the options of a place. -/
def optionTable (place : Place) : HelpTable where
  heading := "Options"
  rows := place.listedFlags.map fun flag => (flag.form, flag.description)

/-- The tables of a topic. -/
def tables : HelpTopic → List HelpTable
  | program => [commandTable, optionTable none]
  | command name => [optionTable (some name)]
  | help => [⟨"Arguments", [("[COMMAND]...", "Print help for the subcommand(s)")]⟩]

/-- The page of a topic. -/
def page (topic : HelpTopic) : String :=
  "\n\n".intercalate
    (topic.description :: ("Usage: " ++ topic.usage) :: topic.tables.map HelpTable.render)

end HelpTopic

end TestScaffold
