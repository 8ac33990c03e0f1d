import TestScaffold.Text.Escape
import TestScaffold.Toml.Scalar
import TestScaffold.Toml.Table
/-!
# Reading TOML

`Toml.parse?` reads a TOML 1.0 document as a JSON object. Its line breaks are
line feeds with or without carriage returns in front of them; a carriage return
anywhere else makes the document unreadable, as does any other fault in it.

The readers take a bound on the number of steps, which the length of the text
gives.
-/

namespace TestScaffold.Toml

/-! ## Blanks and comments -/

/-- Whether a character may stand in a comment: every one but the control characters
of ASCII, of which the tab may. -/
def isCommentChar (c : Char) : Bool :=
  c == '\t' || ' ' ≤ c && c != '\x7f'

/-- The text behind its leading blanks. -/
def skipBlanks (text : List Char) : List Char :=
  text.dropWhile Text.isInlineBlank

/-- The text behind blanks, comments and line breaks. -/
def skipGap (inComment : Bool) : List Char → List Char
  | [] => []
  | c :: rest =>
    if inComment then
      if c = '\n' then skipGap false rest
      else if isCommentChar c then skipGap true rest
      else c :: rest
    else if c = '#' then skipGap true rest
    else if Text.isInlineBlank c || c == '\n' then skipGap false rest
    else c :: rest

/-- The text behind the end of a line, in front of which blanks and a comment may
stand. -/
def lineEnd? (text : List Char) : Option (List Char) :=
  let behind :=
    match skipBlanks text with
    | '#' :: rest => rest.dropWhile isCommentChar
    | rest => rest
  match behind with
  | [] => some []
  | '\n' :: rest => some rest
  | _ => none

/-! ## Strings -/

/-- The text behind a line break at its beginning. -/
def skipFirstBreak : List Char → List Char
  | '\n' :: rest => rest
  | text => text

/-- Up to two quotes at the beginning of a text, and the rest. -/
def extraQuotes (quote : Char) (text : List Char) : List Char × List Char :=
  let extra := (text.take 2).takeWhile (· == quote)
  (extra, text.drop extra.length)

/-- Cut a string over several lines at its three closing quotes. Of up to five
quotes at the end the last three close it. -/
def cutAtThree? (quote : Char) (escapes : Bool) :
    List Char → Option (List Char × List Char)
  | [] => none
  | c :: rest =>
    if c = quote ∧ rest.take 2 = [quote, quote] then
      some (extraQuotes quote (rest.drop 2))
    else
      match rest with
      | d :: rest' =>
        if escapes ∧ c = '\\' then
          (cutAtThree? quote escapes rest').map fun (raw, after) => (c :: d :: raw, after)
        else
          (cutAtThree? quote escapes (d :: rest')).map
            fun (raw, after) => (c :: raw, after)
      | [] => none

/-- A string of one line between quotes of the given kind, behind the opening
quote. Only double quotes allow escapes. -/
def lineString? (quote : Char) (text : List Char) : Option (String × List Char) :=
  if quote = '"' then do
    let (raw, rest) ← Text.cutAtQuote? '"' text
    return (String.ofList (← Text.unescape? false raw), rest)
  else do
    let (raw, rest) ← Text.cutWhere? (· == quote) text
    guard (raw.all Text.isPlain)
    return (String.ofList raw, rest)

/-- A string over several lines, behind the opening quotes. -/
def blockString? (quote : Char) (text : List Char) : Option (String × List Char) := do
  let (raw, rest) ← cutAtThree? quote (quote == '"') (skipFirstBreak text)
  if quote = '"' then return (String.ofList (← Text.unescape? true raw), rest)
  guard (raw.all fun c => Text.isPlain c || c == '\n')
  return (String.ofList raw, rest)

/-! ## Keys -/

/-- Whether a character may stand in a key without quotes. -/
def isBareKeyChar (c : Char) : Bool :=
  c.isAlphanum || c == '_' || c == '-'

/-- A key without dots, and the rest. -/
def simpleKey? : List Char → Option (String × List Char)
  | [] => none
  | c :: rest =>
    if c = '"' ∨ c = '\'' then lineString? c rest
    else
      let name := (c :: rest).takeWhile isBareKeyChar
      if name.isEmpty then none
      else some (String.ofList name, (c :: rest).drop name.length)

/-- The parts of a dotted key, of which there is at least one, and the text behind
the blanks that follow it. -/
def keyParts? : Nat → List Char → Option (List String × List Char)
  | 0, _ => none
  | steps + 1, text => do
    let (name, rest) ← simpleKey? text
    match skipBlanks rest with
    | '.' :: rest =>
      let (parts, rest) ← keyParts? steps (skipBlanks rest)
      return (name :: parts, rest)
    | rest => return ([name], rest)

/-- How many parts a key may have, and how many lists and inline tables may stand
inside one another. -/
def depthLimit : Nat :=
  79

/-- A dotted key, and the text behind the blanks that follow it. -/
def key? (text : List Char) : Option (KeyPath × List Char) := do
  let (parts, rest) ← keyParts? text.length text
  guard (parts.length ≤ depthLimit)
  return (⟨parts.dropLast, (← parts.getLast?)⟩, rest)

/-! ## Values -/

/-- The value at the beginning of a text that is neither a list nor a table, and
the rest. -/
def plainValue? : List Char → Option (Json × List Char)
  | [] => none
  | c :: rest =>
    if c = '"' ∨ c = '\'' then do
      let (text, rest) ←
        if rest.take 2 = [c, c] then blockString? c (rest.drop 2) else lineString? c rest
      return (.text text, rest)
    else leadingScalar? (c :: rest)

mutual
/-- The value at the beginning of a text, and the rest, with `depth` lists and
tables still allowed inside one another. -/
def value? : Nat → Nat → List Char → Option (Json × List Char)
  | 0, _, _ => none
  | steps + 1, depth, text =>
    match text with
    | '[' :: rest =>
      if depth = 0 then none else items? steps (depth - 1) [] (skipGap false rest)
    | '{' :: rest =>
      if depth = 0 then none
      else
        match skipBlanks rest with
        | '}' :: rest => some (.object [], rest)
        | rest => members? steps (depth - 1) [] rest
    | text => plainValue? text
/-- The rest of a list behind some items in reverse, at an item or at the end. -/
def items? : Nat → Nat → List Json → List Char → Option (Json × List Char)
  | 0, _, _, _ => none
  | steps + 1, depth, done, text =>
    match text with
    | ']' :: rest => some (.array done.reverse, rest)
    | text => do
      let (value, rest) ← value? steps depth text
      match skipGap false rest with
      | ']' :: rest => return (.array (value :: done).reverse, rest)
      | ',' :: rest => items? steps depth (value :: done) (skipGap false rest)
      | _ => none
/-- The rest of an inline table behind some members in reverse, at a member. -/
def members? : Nat → Nat → List (KeyPath × Json) → List Char → Option (Json × List Char)
  | 0, _, _, _ => none
  | steps + 1, depth, done, text => do
    let (key, rest) ← key? text
    let rest ← Text.stripStart? ['='] rest
    let (value, rest) ← value? steps depth (skipBlanks rest)
    let done := (key, value) :: done
    match skipBlanks rest with
    | '}' :: rest =>
      let entries ← addValues [] done.reverse
      return (.object (membersOf entries), rest)
    | ',' :: rest => members? steps depth done (skipBlanks rest)
    | _ => none
end

/-! ## Documents -/

/-- A line of a document. -/
inductive Line where
  /-- A header; in double brackets it begins a new table of a list. -/
  | header (inList : Bool) (key : KeyPath)
  /-- A key with its value. -/
  | assignment (key : KeyPath) (value : Json)

/-- The line at the beginning of a text that begins with no blank, and the rest
behind the end of the line. -/
def line? (text : List Char) : Option (Line × List Char) :=
  match text with
  | '[' :: '[' :: rest => do
    let (key, rest) ← key? (skipBlanks rest)
    let rest ← Text.stripStart? [']', ']'] rest
    return (.header true key, ← lineEnd? rest)
  | '[' :: rest => do
    let (key, rest) ← key? (skipBlanks rest)
    let rest ← Text.stripStart? [']'] rest
    return (.header false key, ← lineEnd? rest)
  | text => do
    let (key, rest) ← key? text
    let rest ← Text.stripStart? ['='] rest
    let (value, rest) ← value? (text.length + 1) depthLimit (skipBlanks rest)
    return (.assignment key value, ← lineEnd? rest)

/-- The lines of a text that are neither blank nor comments. -/
def lines? : Nat → List Char → Option (List Line)
  | 0, text => if (skipGap false text).isEmpty then some [] else none
  | steps + 1, text =>
    match skipGap false text with
    | [] => some []
    | text => do
      let (line, rest) ← line? text
      return line :: (← lines? steps rest)

/-- Add a line to the values in front of the first header and the sections read so
far, the last section first. -/
def addLine : List (KeyPath × Json) × List Section → Line →
    List (KeyPath × Json) × List Section
  | (top, sections), .header inList key => (top, ⟨key, inList, []⟩ :: sections)
  | (top, []), .assignment key value => (top ++ [(key, value)], [])
  | (top, s :: sections), .assignment key value =>
    (top, { s with values := s.values ++ [(key, value)] } :: sections)

/-- Join each carriage return with the line feed behind it; `none` when one stands
alone. -/
def joinLineBreaks? : List Char → Option (List Char)
  | [] => some []
  | '\r' :: '\n' :: rest => (joinLineBreaks? rest).map ('\n' :: ·)
  | '\r' :: _ => none
  | c :: rest => (joinLineBreaks? rest).map (c :: ·)

/-- The text without a byte order mark at its beginning. -/
def skipMark : List Char → List Char
  | '\ufeff' :: rest => rest
  | text => text

/-- The table of a TOML document; `none` when the text is no TOML. -/
def parse? (text : String) : Option Json := do
  let text ← joinLineBreaks? (skipMark text.toList)
  let lines ← lines? text.length text
  let (top, sections) := lines.foldl addLine ([], [])
  let entries ← sections.reverse.foldlM addSection (← addValues [] top)
  return .object (membersOf entries)

end TestScaffold.Toml
