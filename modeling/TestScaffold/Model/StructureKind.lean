import TestScaffold.Text.Blank
import TestScaffold.Text.Cut
/-!
# Structure kinds

The declaration of a type says with one to three words what it declares.
-/

namespace TestScaffold

/-- What a type declaration declares. -/
inductive StructureKind where
  | classType
  | interfaceType
  | enumType
  | structType
  | record
  | recordClass
  | recordStruct
  | readonlyStruct
  | readonlyRecordStruct
  | refStruct
  | readonlyRefStruct
deriving DecidableEq, Repr, Inhabited

namespace StructureKind

/-- The words of a declaration. -/
def text : StructureKind → String
  | classType => "class"
  | interfaceType => "interface"
  | enumType => "enum"
  | structType => "struct"
  | record => "record"
  | recordClass => "record class"
  | recordStruct => "record struct"
  | readonlyStruct => "readonly struct"
  | readonlyRecordStruct => "readonly record struct"
  | refStruct => "ref struct"
  | readonlyRefStruct => "readonly ref struct"

/-- All kinds, longer word sequences in front of those they begin with. -/
def all : List StructureKind :=
  [readonlyRecordStruct, readonlyRefStruct, readonlyStruct, recordStruct,
    recordClass, refStruct, interfaceType, record, structType, classType,
    enumType]

/-- The kind with exactly this text. -/
def ofText? (text : String) : Option StructureKind :=
  all.find? (fun kind => kind.text == text)

/-- The kind a text begins with, with a space behind it, and what follows. -/
def leading? (text : List Char) : Option (StructureKind × List Char) :=
  all.findSome? fun kind =>
    (Text.stripStart? (kind.text.toList ++ [' ']) text).map
      fun rest => (kind, Text.trim rest)

end StructureKind

end TestScaffold
