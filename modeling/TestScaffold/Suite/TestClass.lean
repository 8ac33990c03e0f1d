import TestScaffold.Model.Grouping
import TestScaffold.Suite.TestMethod
/-!
# Test classes

A test class holds one test for every testable method of its class. The first
overload of a method is tested under the method's name, the others under the name
with their number behind it.

A test class is written either *in full*, with usings and a namespace, for a file
of its own, or *bare*, for a file that exists already.
-/

namespace TestScaffold.Suite

/-- The tests of one class. -/
structure TestClass where
  /-- The class under test. -/
  subject : Class
  /-- The name of the test class. -/
  name : String
  /-- The name of its file. -/
  fileName : String
  /-- The tests in order. -/
  tests : List TestMethod
deriving Repr

/-- The tests of the overloads of one method, of which `number` went before. -/
def overloadTests (subject : Class) (number : Nat) : List Method → List TestMethod
  | [] => []
  | m :: methods =>
    let nameOverride :=
      if number = 0 then none else some (m.name ++ toString (number + 1))
    { subject, method := m, nameOverride } :: overloadTests subject (number + 1) methods

/-- The tests of a class: overloads stand together, in the order in which their
names first appear. -/
def testsOf (c : Class) : List TestMethod :=
  (groupByKey Method.name (c.methods.filter isTestable)).flatMap
    fun (_, overloads) => overloadTests c 0 overloads

namespace TestClass

/-- The test class of a class. -/
def ofClass (c : Class) : TestClass :=
  let name := c.name ++ "Tests"
  { subject := c, name, fileName := name ++ ".cs", tests := testsOf c }

/-- The same tests under a longer class name, in the same file. -/
def withPrefix (t : TestClass) (text : String) : TestClass :=
  { t with name := text ++ t.name }

/-- The namespace of the test class: that of the test project, the one below the
class under test, or the default one. -/
def testNamespace (t : TestClass) (settings : GenerateSettings) : String :=
  match settings.targetProjectNamespace.filter (fun n => !n.isEmpty) with
  | some target => target
  | none =>
    match t.subject.containingNamespace with
    | some own => own ++ ".Tests"
    | none => settings.defaultNamespace

/-- The namespaces the test class uses: those of the class under test and its own
one. -/
def usings (t : TestClass) : List String :=
  match t.subject.containingNamespace with
  | some own =>
    if t.subject.usings.contains own then t.subject.usings else t.subject.usings ++ [own]
  | none => t.subject.usings

/-- The lines with a line break between them. -/
def joinLines (lines : List (List Char)) : List Char :=
  List.intercalate ['\n'] lines

/-- What stands in front of a test class in a file of its own. -/
def fileHeader (t : TestClass) (settings : GenerateSettings) : List Char :=
  let usingLines := t.usings.map fun u => "using ".toList ++ u.toList ++ [';']
  (if usingLines.isEmpty then [] else joinLines usingLines ++ ['\n', '\n'])
    ++ "namespace ".toList ++ (t.testNamespace settings).toList ++ [';', '\n', '\n']

/-- The warnings that are switched off, in one line. -/
def warningList (settings : GenerateSettings) : List Char :=
  commaJoin (settings.warningsToDisable.map String.toList)

/-- The lines that switch warnings off. -/
def warningsOff (settings : GenerateSettings) : List Char :=
  let warnings := warningList settings
  if settings.disableCompilerWarnings then
    "#nullable disable\n".toList
      ++ (if warnings.isEmpty then []
        else "#pragma warning disable ".toList ++ warnings ++ ['\n'])
  else []

/-- The lines that switch warnings on again. -/
def warningsOn (settings : GenerateSettings) : List Char :=
  let warnings := warningList settings
  if settings.disableCompilerWarnings then
    (if warnings.isEmpty then []
      else "\n#pragma warning restore ".toList ++ warnings)
      ++ "\n#nullable restore".toList
  else []

/-- The declaration of the test class. -/
def declaration (t : TestClass) (settings : GenerateSettings) : List Char :=
  "public class ".toList ++ t.name.toList ++ ['\n', '{', '\n']
    ++ List.intercalate ['\n', '\n'] (t.tests.map fun m => m.chars settings)
    ++ ['\n', '}']

/-- The test class for a file that exists already. -/
def bare (t : TestClass) (settings : GenerateSettings) : String :=
  String.ofList (warningsOff settings ++ t.declaration settings ++ warningsOn settings)

/-- The test class for a file of its own. -/
def full (t : TestClass) (settings : GenerateSettings) : String :=
  String.ofList (t.fileHeader settings) ++ t.bare settings

end TestClass

/-! ## The test classes of a document -/

/-- The test classes of some classes: those of the testable ones that have a
testable method. -/
def testClasses (classes : List Class) : List TestClass :=
  ((classes.filter isTestable).map TestClass.ofClass).filter
    fun t => !t.tests.isEmpty

/-- Why there is no test class. -/
inductive NoTestClass where
  /-- There is no class at all. -/
  | noClass
  /-- No class is testable. -/
  | noTestableClass
  /-- No testable class has a testable method. -/
  | noTestableMethod
deriving DecidableEq, Repr

/-- The reason in words. -/
def NoTestClass.message : NoTestClass → String
  | noClass => "no C# class found"
  | noTestableClass => "no testable class found"
  | noTestableMethod => "no C# class with testable methods found"

/-- Why some classes have no test class; `none` when they have one. -/
def missingReason? (classes : List Class) (tests : List TestClass) :
    Option NoTestClass :=
  if classes.isEmpty then some .noClass
  else if !classes.any isTestable then some .noTestableClass
  else if tests.isEmpty then some .noTestableMethod
  else none

end TestScaffold.Suite
