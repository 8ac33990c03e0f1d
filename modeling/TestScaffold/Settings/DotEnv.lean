import TestScaffold.Settings.Environment
import TestScaffold.Text.Alphanumeric
import TestScaffold.Text.Cut
import TestScaffold.Text.Line
/-!
# Environment files

A `.env` file adds variables to the environment, one `name = value` for each
statement, maybe with the word `export` in front. Variables that exist already
keep their values.

A statement is a line, or several lines when a quote or a blank at the end of a
line leaves it open. A value may be set in quotes, use escapes and name other
variables by `$name` and `${name}`; between single quotes everything stands for
itself. Between braces a name may be any text. What follows a `#` behind a blank is
a comment.

The first fault in a file ends its reading; the variables in front of it count.
-/

namespace TestScaffold.DotEnv

/-! ## Statements -/

/-- What a statement is in the middle of. -/
inductive Openness where
  /-- Nothing: the statement may end here. -/
  | closed
  /-- An escape outside of quotes. -/
  | escape
  /-- Single quotes, maybe in an escape. -/
  | single (escaped : Bool)
  /-- Double quotes, maybe in an escape. -/
  | double (escaped : Bool)
  /-- A blank, behind which a comment may begin. -/
  | blank
deriving DecidableEq, Repr

/-- What a statement is in the middle of behind one more character that begins no
comment. -/
def Openness.next : Openness → Char → Openness
  | .escape, _ => .closed
  | .single escaped, c =>
    if escaped then .single false
    else if c = '\\' then .single true
    else if c = '\'' then .closed
    else .single false
  | .double escaped, c =>
    if escaped then .double false
    else if c = '\\' then .double true
    else if c = '"' then .closed
    else .double false
  | state, c =>
    if c = '\\' then .escape
    else if c = '"' then .double false
    else if c = '\'' then .single false
    else if state = .closed ∧ Text.isBlank c ∧ c ≠ '\n' ∧ c ≠ '\r' then .blank
    else .closed

/-- The part of a line in front of a comment, and what the statement is in the
middle of behind it. A comment ends the statement. -/
def cutComment (state : Openness) : List Char → List Char × Openness
  | [] => ([], state)
  | c :: rest =>
    if c = '#' ∧ state = .blank then ([], .closed)
    else
      let (kept, behind) := cutComment (state.next c) rest
      (c :: kept, behind)

/-- Whether the first character of a text that is not blank begins a comment. -/
def isComment (text : List Char) : Bool :=
  (Text.trimStart text).head? == some '#'

/-- The statements on some lines, behind the beginning of a statement and what it is
in the middle of; `none` for one that is no text or is never closed. -/
def statements (begun : List Char) (state : Openness) :
    List (Option (List Char)) → List (Option (List Char))
  | [] => if state = .closed then [] else [none]
  | none :: _ => [none]
  | some line :: lines =>
    if isComment (begun ++ line) then statements [] .closed lines
    else
      let (kept, behind) := cutComment state line
      if behind = .closed then
        some (Text.dropBreak (begun ++ kept)) :: statements [] .closed lines
      else statements (begun ++ line) behind lines

/-! ## Values -/

/-- What a value is in the middle of. -/
inductive ValueState where
  /-- Plain text, or double quotes. -/
  | plain (inQuotes : Bool)
  /-- An escape in plain text or in double quotes. -/
  | escape (inQuotes : Bool)
  /-- Single quotes. -/
  | single
  /-- The name of a variable so far, with or without a brace in front. -/
  | variable (inQuotes inBraces : Bool) (name : List Char)
  /-- The blanks behind the value. -/
  | behind

/-- The character that an escape stands for. -/
def escaped? (c : Char) : Option Char :=
  if c = 'n' then some '\n'
  else if ['\\', '\'', '"', '$', ' '].contains c then some c
  else none

/-- The value written by a text, with the variables it names replaced. The character
that ends a name without braces stands for itself, even a quote. -/
def value? (known : Environment) : ValueState → List Char → Option (List Char)
  | .plain inQuotes, [] => if inQuotes then none else some []
  | .escape inQuotes, [] => if inQuotes then none else some []
  | .single, [] => none
  | .variable inQuotes inBraces name, [] =>
    if inQuotes || inBraces then none else some (valueOf name)
  | .behind, [] => some []
  | .behind, c :: rest =>
    if c = '#' then some []
    else if c = ' ' ∨ c = '\t' then value? known .behind rest
    else none
  | .escape inQuotes, c :: rest => do
    let c ← escaped? c
    return c :: (← value? known (.plain inQuotes) rest)
  | .single, c :: rest =>
    if c = '\'' then value? known (.plain false) rest
    else (value? known .single rest).map (c :: ·)
  | .variable inQuotes inBraces name, c :: rest =>
    if Text.isAlphanumeric c then
      value? known (.variable inQuotes inBraces (name ++ [c])) rest
    else if inBraces then
      if c = '}' then
        (value? known (.plain inQuotes) rest).map (valueOf name ++ ·)
      else value? known (.variable inQuotes true (name ++ [c])) rest
    else if c = '{' ∧ name.isEmpty then
      value? known (.variable inQuotes true []) rest
    else if c = '$' then
      (value? known (.variable inQuotes false []) rest).map (valueOf name ++ ·)
    else (value? known (.plain inQuotes) rest).map (valueOf name ++ c :: ·)
  | .plain inQuotes, c :: rest =>
    if c = '$' then value? known (.variable inQuotes false []) rest
    else if c = '\\' then value? known (.escape inQuotes) rest
    else if inQuotes then
      if c = '"' then value? known (.plain false) rest
      else (value? known (.plain true) rest).map (c :: ·)
    else if c = '\'' then value? known .single rest
    else if c = '"' then value? known (.plain true) rest
    else if c = ' ' ∨ c = '\t' then value? known .behind rest
    else (value? known (.plain false) rest).map (c :: ·)
where
  /-- The value of a variable; nothing if there is no such variable. -/
  valueOf (name : List Char) : List Char :=
    (known.value? name).getD []

/-! ## Variables -/

/-- Whether a character may begin the name of a variable. -/
def isNameStart (c : Char) : Bool :=
  c.isAlpha || c == '_'

/-- Whether a character may stand in the name of a variable. -/
def isNameChar (c : Char) : Bool :=
  c.isAlphanum || c == '_' || c == '.'

/-- The name at the beginning of a text, and the text behind the blanks that follow
it. -/
def name? (text : List Char) : Option (List Char × List Char) :=
  match text with
  | c :: _ =>
    if isNameStart c then
      some (text.takeWhile isNameChar, Text.trimStart (text.dropWhile isNameChar))
    else none
  | [] => none

/-- The name that a statement gives a value, and the text of that value. The word
`export` is a name itself when an equals sign follows it. -/
def assignment? (text : List Char) : Option (List Char × List Char) := do
  let (name, rest) ← name? text
  match Text.stripStart? ['='] rest with
  | some rest => return (name, Text.trimStart rest)
  | none => do
    guard (name = "export".toList)
    let (name, rest) ← name? rest
    return (name, Text.trimStart (← Text.stripStart? ['='] rest))

/-- The variable that a statement is about, with its value. -/
def definition? (known : Environment) (text : List Char) : Option (String × String) := do
  let (name, value) ← assignment? text
  if value.isEmpty || value.head? == some '#' then return (String.ofList name, "")
  return (String.ofList name, String.ofList (← value? known (.plain false) value))

/-- The environment with a variable, unless it exists already. -/
def define (known : Environment) (name value : String) : Environment :=
  if (known.lookup name).isSome then known else known ++ [(name, value)]

/-- The environment with the variables of some statements. -/
def defineAll (known : Environment) : List (Option (List Char)) → Environment
  | [] => known
  | none :: _ => known
  | some statement :: rest =>
    let text := Text.trim statement
    if text.isEmpty || isComment text then defineAll known rest
    else
      match definition? known text with
      | some (name, value) => defineAll (define known name value) rest
      | none => known

/-- The lines of a file without a byte order mark in front of them. -/
def linesOfFile (bytes : List UInt8) : List (Option (List Char)) :=
  match Text.linesOfBytes bytes with
  | some ('\ufeff' :: line) :: lines =>
    if line.isEmpty then lines else some line :: lines
  | lines => lines

/-- The environment with the variables of a file. -/
def load (known : Environment) (bytes : List UInt8) : Environment :=
  defineAll known (statements [] .closed (linesOfFile bytes))

end TestScaffold.DotEnv
