import TestScaffold.Model.Parameter
/-!
# The statements of a test

A test declares locals, makes the object under test, calls the method under test
and compares the result. Its body is kept as a list of statements; their texts
come last.

The body has three sections. The statements of the first one stand in blocks
with a blank line behind each.
-/

namespace TestScaffold.Suite

/-- What a parameter belongs to. -/
inductive Role where
  /-- The method under test. -/
  | method
  /-- The constructor of the object under test. -/
  | target
deriving DecidableEq, Repr

/-- The word in front of the locals for parameters of a role. -/
def Role.text : Role → String
  | method => "method"
  | target => "target"

/-- The local that stands for a parameter. -/
def localName (role : Role) (p : Parameter) : List Char :=
  role.text.toList ++ '_' :: p.name.toList

/-- An argument of a call: a local with the modifier its parameter asks for. -/
structure Argument where
  /-- The modifier with the space behind it, or nothing. -/
  modifier : String
  /-- The name of the local. -/
  name : List Char
deriving DecidableEq, Repr

namespace Argument

/-- The argument for a parameter. -/
def ofParameter (role : Role) (p : Parameter) : Argument :=
  ⟨p.callModifier, localName role p⟩

/-- The text of an argument. -/
def chars (a : Argument) : List Char :=
  a.modifier.toList ++ a.name

/-- The text of some arguments without their parentheses. -/
def listChars (arguments : List Argument) : List Char :=
  commaJoin (arguments.map chars)

end Argument

/-- What a test computes. -/
inductive Expression where
  /-- The default value of a type. -/
  | default
  /-- A new object; without a type its type is that of the local it is for. -/
  | construct (type : Option TypeExpr) (arguments : List Argument)
  /-- A call of a method of the object under test. -/
  | call (awaited : Bool) (method : TypeExpr) (arguments : List Argument)
deriving DecidableEq, Repr

/-- The text of an expression. -/
def Expression.chars : Expression → List Char
  | default => "default".toList
  | construct none arguments => "new(".toList ++ Argument.listChars arguments ++ [')']
  | construct (some type) arguments =>
    "new ".toList ++ type.chars ++ '(' :: Argument.listChars arguments ++ [')']
  | call awaited method arguments =>
    (if awaited then "await ".toList else []) ++ "target.".toList ++ method.chars
      ++ '(' :: Argument.listChars arguments ++ [')']

/-- A statement of a test. -/
inductive Statement where
  /-- Declare a local, with a value or without. -/
  | declare (type : List Char) (name : List Char) (value : Option Expression)
  /-- Compute something for its effect. -/
  | run (value : Expression)
  /-- Compare the two results. -/
  | assertEqual
deriving DecidableEq, Repr

namespace Statement

/-- The text of a statement. -/
def chars : Statement → List Char
  | declare type name none => type ++ ' ' :: name ++ [';']
  | declare type name (some value) =>
    type ++ ' ' :: name ++ " = ".toList ++ value.chars ++ [';']
  | run value => value.chars ++ [';']
  | assertEqual => "Assert.Equal(expected, actual);".toList

/-- The local a statement declares. -/
def declared? : Statement → Option (List Char)
  | declare _ name _ => some name
  | run _ | assertEqual => none

/-- The declaration of the local for a parameter. A local for an `out` parameter
has no value yet. -/
def ofParameter (role : Role) (p : Parameter) : Statement :=
  .declare p.type.chars (localName role p) (if p.isOut then none else some .default)

end Statement

/-- The body of a test. -/
structure Body where
  /-- The blocks of declarations; a block may be empty. -/
  arrange : List (List Statement)
  /-- The call of the method under test. -/
  act : Statement
  /-- The comparison of the results, if there are any. -/
  assertion : Option Statement
deriving DecidableEq, Repr

namespace Body

/-- All statements in order. -/
def statements (b : Body) : List Statement :=
  b.arrange.flatten ++ b.act :: b.assertion.toList

/-- The text of a block behind an indentation: its statements on lines and a
blank line. An empty block has no text. -/
def blockChars (indent : List Char) (block : List Statement) : List Char :=
  if block.isEmpty then []
  else List.intercalate ['\n'] (block.map fun s => indent ++ s.chars) ++ ['\n', '\n']

/-- The text of a body behind an indentation. -/
def chars (indent : List Char) (b : Body) : List Char :=
  indent ++ "// arrange\n".toList
    ++ b.arrange.flatMap (blockChars indent)
    ++ indent ++ "// act\n".toList
    ++ blockChars indent [b.act]
    ++ indent ++ "// assert\n".toList
    ++ b.assertion.toList.flatMap fun s => indent ++ s.chars ++ ['\n']

end Body

end TestScaffold.Suite
