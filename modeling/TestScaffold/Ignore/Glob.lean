import TestScaffold.Text.Line
/-!
# Glob patterns

A glob describes file paths below some folder. It is matched against the bytes of
the whole path, in which `/` separates names:

* `?` is any byte of a name and `*` any number of them;
* `[a-z]` is a byte of the class, `[!a-z]` and `[^a-z]` one outside of it;
* `{a,b}` is one of the patterns between the commas;
* `**` as a whole name is any number of names;
* a backslash takes the meaning of the character behind it away.

`Glob.parse?` reads a pattern and `Glob.isMatch` applies it. A pattern with a brace
that does not end or with a class that runs backwards is no pattern. A class that
does not end is no class: its bracket, and each one behind it, stands for itself.

`Glob.depth` says how deep a pattern nests, for which there is a limit.
-/

namespace TestScaffold

/-- A part of a pattern. -/
inductive Glob.Part where
  /-- This very byte. -/
  | byte (value : UInt8)
  /-- Any byte of a name. -/
  | one
  /-- Any bytes of a name. -/
  | many
  /-- A byte in one of the ranges, or in none of them. -/
  | range (negated : Bool) (ranges : List (UInt8 × UInt8))
  /-- Any number of names, with the slashes behind them. -/
  | leadingNames
  /-- A slash, then any number of names with the slashes behind them. -/
  | innerNames
  /-- A slash and anything behind it. -/
  | trailingNames
  /-- One of some patterns; nothing at all when there is none of them. -/
  | oneOf (branches : List (List Glob.Part))

/-- A pattern. -/
structure Glob where
  parts : List Glob.Part

namespace Glob

/-! ## Matching -/

/-- The byte that separates names. -/
def slash : UInt8 :=
  47

/-- The texts behind each number of bytes of a name. -/
def behindName : List UInt8 → List (List UInt8)
  | [] => [[]]
  | b :: rest => if b = slash then [b :: rest] else (b :: rest) :: behindName rest

/-- The texts behind each slash. -/
def behindSlashes : List UInt8 → List (List UInt8)
  | [] => []
  | b :: rest => if b = slash then rest :: behindSlashes rest else behindSlashes rest

/-- A text and all texts behind some of its bytes. -/
def tails : List UInt8 → List (List UInt8)
  | [] => [[]]
  | b :: rest => (b :: rest) :: tails rest

/-- Whether a byte lies in one of some ranges. -/
def inRanges (ranges : List (UInt8 × UInt8)) (b : UInt8) : Bool :=
  ranges.any fun (first, last) => first ≤ b && b ≤ last

mutual
/-- What may be left of a text behind a part at its beginning. -/
def Part.rests : Part → List UInt8 → List (List UInt8)
  | .byte value, b :: rest => if b = value then [rest] else []
  | .one, b :: rest => if b = slash then [] else [rest]
  | .many, text => behindName text
  | .range negated ranges, b :: rest => if inRanges ranges b != negated then [rest] else []
  | .leadingNames, text => text :: behindSlashes text
  | .innerNames, b :: rest => if b = slash then rest :: behindSlashes rest else []
  | .trailingNames, b :: rest => if b = slash then tails rest else []
  | .oneOf [], text => [text]
  | .oneOf branches, text => restsOfAny branches text
  | _, [] => []
/-- What may be left of some texts behind some parts at their beginning. The parts
are taken one by one, and what is left is kept once, so that it stays short. -/
def restsOfAll : List Part → List (List UInt8) → List (List UInt8)
  | [], texts => texts
  | part :: parts, texts => restsOfAll parts (texts.flatMap part.rests).eraseDups
/-- What may be left of a text behind one of some patterns at its beginning. -/
def restsOfAny : List (List Part) → List UInt8 → List (List UInt8)
  | [], _ => []
  | parts :: branches, text => restsOfAll parts [text] ++ restsOfAny branches text
end

/-- Whether a pattern describes a whole path. -/
def isMatch (glob : Glob) (path : List UInt8) : Bool :=
  (restsOfAll glob.parts [path]).contains []

/-! ## Nesting -/

/-- How many things a part puts into a row. -/
def Part.width : Part → Nat
  | .oneOf [] => 0
  | .trailingNames => 2
  | _ => 1

/-- What the row of some parts adds to their depth: one, unless it is a row of one. -/
def rowDepth (parts : List Part) : Nat :=
  if (parts.map Part.width).foldr (· + ·) 0 ≤ 1 then 0 else 1

mutual
/-- How deep a part nests. Braces add a level, and one more if there is a choice. -/
def Part.depth : Part → Nat
  | .byte _ => 0
  | .one | .trailingNames => 1
  | .many => 2
  | .range _ ranges => if ranges.length = 1 then 1 else 2
  | .leadingNames | .innerNames => 4
  | .oneOf [] => 0
  | .oneOf branches => (if branches.length = 1 then 1 else 2) + depthOfAny branches
/-- How deep the deepest of some parts nests. -/
def depthOfAll : List Part → Nat
  | [] => 0
  | part :: parts => max part.depth (depthOfAll parts)
/-- How deep the deepest of some rows of parts nests. -/
def depthOfAny : List (List Part) → Nat
  | [] => 0
  | parts :: branches => max (rowDepth parts + depthOfAll parts) (depthOfAny branches)
end

/-- How deep a pattern nests. A whole pattern is a row with its two ends. -/
def depth (glob : Glob) : Nat :=
  1 + depthOfAll glob.parts

/-- How deep a pattern may nest. -/
def depthLimit : Nat :=
  250

/-! ## Reading -/

/-- The bytes of a character. -/
def bytesOf (c : Char) : List UInt8 :=
  Text.encode (String.singleton c)

/-- The ranges of bytes that a range of characters stands for: a class is matched
against single bytes, so only the last byte of the first character and the first
byte of the last one span a range. -/
def byteRanges (first last : Char) : List (UInt8 × UInt8) :=
  let single (bytes : List UInt8) := bytes.map fun b => (b, b)
  if first = last then single (bytesOf first)
  else
    match (bytesOf first).reverse, bytesOf last with
    | a :: before, b :: behind => single before.reverse ++ (a, b) :: single behind
    | _, _ => []

/-- Why a bracket begins no class. -/
inductive ClassFault where
  /-- The class does not end. -/
  | unclosed
  /-- A range runs backwards. -/
  | backwards
deriving DecidableEq, Repr

/-- The ranges of a class behind those read so far in reverse, and the text behind
the class. A closing bracket or a hyphen at the beginning stands for itself, and
so does a hyphen at the end; ranges must not run backwards. -/
def classRanges (atStart inRange : Bool) (ranges : List (Char × Char)) :
    List Char → Except ClassFault (List (Char × Char) × List Char)
  | [] => .error .unclosed
  | c :: rest =>
    if c = ']' ∧ ¬ atStart then
      .ok ((if inRange then ('-', '-') :: ranges else ranges).reverse, rest)
    else if c = '-' ∧ ¬ atStart ∧ ¬ inRange then classRanges false true ranges rest
    else
      match inRange, ranges with
      | true, (first, _) :: ranges =>
        if c < first then .error .backwards
        else classRanges false false ((first, c) :: ranges) rest
      | _, ranges => classRanges false false ((c, c) :: ranges) rest

/-- A class behind its opening bracket, and the text behind it. -/
def classPart (text : List Char) : Except ClassFault (Part × List Char) := do
  let (negated, text) :=
    match text with
    | '!' :: rest | '^' :: rest => (true, rest)
    | text => (false, text)
  let (ranges, rest) ← classRanges true false [] text
  return (.range negated (ranges.flatMap fun (first, last) => byteRanges first last), rest)

/-- Braces that are not closed yet. -/
structure Brace where
  /-- The finished patterns between the braces, the last one first. -/
  branches : List (List Part)
  /-- The parts in front of the opening brace, the last one first. -/
  before : List Part

/-- How far a pattern is read. -/
structure Progress where
  /-- The character in front. -/
  previous : Option Char := none
  /-- The parts read so far, the last one first. -/
  done : List Part := []
  /-- The braces that are open, the last one first. -/
  braces : List Brace := []
  /-- Whether brackets may begin classes. -/
  classes : Bool := true

namespace Progress

/-- Go on behind a character that stands for some parts, given in reverse. -/
def add (p : Progress) (c : Char) (parts : List Part) : Progress :=
  { p with previous := some c, done := parts ++ p.done }

/-- Go on behind a character that stands for itself. -/
def addChar (p : Progress) (c : Char) : Progress :=
  p.add c ((bytesOf c).reverse.map .byte)

/-- Whether a row of parts stands for nothing. -/
def isNothing (parts : List Part) : Bool :=
  parts.all fun part => part.width == 0

/-- Go on behind an opening brace. -/
def openBrace (p : Progress) : Progress :=
  { p with previous := some '{', done := [], braces := ⟨[], p.done⟩ :: p.braces }

/-- Go on behind a comma, which ends a pattern between braces. -/
def comma (p : Progress) : Progress :=
  match p.braces with
  | [] => p.addChar ','
  | brace :: braces =>
    { p with
      previous := some ','
      done := []
      braces := { brace with branches := p.done.reverse :: brace.branches } :: braces }

/-- Go on behind a closing brace, if there is one to close. Patterns that stand for
nothing do not count. -/
def closeBrace? (p : Progress) : Option Progress :=
  match p.braces with
  | [] => none
  | brace :: braces =>
    let branches := (p.done.reverse :: brace.branches).reverse.filter (!isNothing ·)
    some { p with
      previous := some '}'
      done := .oneOf branches :: brace.before
      braces }

/-- Put the names that two stars stand for in the place of the part in front of
them, unless names stand there already. -/
def joinNames (names : Part) : List Part → List Part
  | .leadingNames :: done => .leadingNames :: done
  | .trailingNames :: done => .trailingNames :: done
  | _ :: done => names :: done
  | [] => [names]

/-- Whether two stars may stand for whole names here: behind a slash, and in braces
also behind a comma or an opening brace. -/
def mayBeginName (p : Progress) : Bool :=
  p.previous == some '/'
    || !p.braces.isEmpty && (p.previous == some ',' || p.previous == some '{')

/-- Go on behind two stars, with the text that is left. They stand for whole names
only between slashes and ends of a pattern. -/
def twoStars (p : Progress) (text : List Char) : Progress × List Char :=
  let plain := (p.add '*' [.many, .many], text)
  let names (c : Char) (done : List Part) := { p with previous := some c, done }
  if p.done.isEmpty then
    match text with
    | [] => (names '*' [.leadingNames], [])
    | '/' :: rest => (names '/' [.leadingNames], rest)
    | _ => plain
  else if p.mayBeginName then
    match text with
    | [] => (names '*' (joinNames .trailingNames p.done), [])
    | '/' :: rest => (names '/' (joinNames .innerNames p.done), rest)
    | c :: _ =>
      if !p.braces.isEmpty && (c == ',' || c == '}') then
        (names '*' (joinNames .trailingNames p.done), text)
      else plain
  else plain

end Progress

/-- The parts of the rest of a pattern. -/
def parts? : Nat → Progress → List Char → Option (List Part)
  | _, p, [] => if p.braces.isEmpty then some p.done.reverse else none
  | 0, _, _ => none
  | steps + 1, p, c :: rest =>
    match c with
    | '?' => parts? steps (p.add c [.one]) rest
    | '*' =>
      match rest with
      | '*' :: rest =>
        let (p, rest) := p.twoStars rest
        parts? steps p rest
      | rest => parts? steps (p.add c [.many]) rest
    | '[' =>
      if p.classes then
        match classPart rest with
        | .ok (part, rest) => parts? steps (p.add ']' [part]) rest
        | .error .unclosed => parts? steps { p.addChar c with classes := false } rest
        | .error .backwards => none
      else parts? steps (p.addChar c) rest
    | '{' => parts? steps p.openBrace rest
    | '}' => p.closeBrace?.bind fun p => parts? steps p rest
    | ',' => parts? steps p.comma rest
    | '\\' =>
      match rest with
      | [] => none
      | c :: rest => parts? steps (p.addChar c) rest
    | c => parts? steps (p.addChar c) rest

/-- Read a pattern. Two stars alone stand for any path. -/
def parse? (text : List Char) : Option Glob := do
  match ← parts? text.length {} text with
  | [.leadingNames] => return ⟨[.leadingNames, .many]⟩
  | parts => return ⟨parts⟩

end Glob

end TestScaffold
