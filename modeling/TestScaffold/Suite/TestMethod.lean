import TestScaffold.Model.Class
import TestScaffold.Suite.GenericName
import TestScaffold.Suite.Statement
import TestScaffold.Suite.TypePolicy
/-!
# Test methods

For one method of a class a test method is written that declares a local for
every argument, makes the object under test with its widest constructor, calls
the method and compares the result with an expected one. Methods without a
result expect nothing; methods that return a task are awaited.
-/

namespace TestScaffold.Suite

/-- The test of one method. -/
structure TestMethod where
  /-- The class under test. -/
  subject : Class
  /-- The method under test. -/
  method : Method
  /-- The name of a test that does not bear the name of its method. -/
  nameOverride : Option String := none
deriving Repr

/-- The testable constructor with the most parameters, the first one on a tie; a
class without any has the implicit constructor. -/
def primaryConstructor (c : Class) : Constructor :=
  let wider (best : Option Constructor) (next : Constructor) : Option Constructor :=
    match best with
    | some b => if next.parameters.length ≤ b.parameters.length then some b else some next
    | none => some next
  ((c.constructors.filter isTestable).foldl wider none).getD (.implicit c.name)

namespace TestMethod

/-- The name of the test. -/
def name (t : TestMethod) : String :=
  t.nameOverride.getD t.method.name

/-- The generic parameters of the class and of the method, in order. -/
def genericParameters (t : TestMethod) : List String :=
  collectGenericParameters (t.subject.generics ++ t.method.generics)

/-- The name of the type of asynchronous results. -/
def taskName : String :=
  "Task"

/-- What a test is made of, with all types adapted. -/
structure Plan where
  /-- The name of the test. -/
  name : String
  /-- Whether the test hides an inherited method. -/
  hidesInherited : Bool
  /-- Whether the method is awaited. -/
  isAsync : Bool
  /-- The text of the type of the result; `none` when there is none. -/
  resultType : Option (List Char)
  /-- The class under test. -/
  classType : TypeExpr
  /-- The method under test with its generic arguments. -/
  methodType : TypeExpr
  /-- The parameters of the method. -/
  methodParameters : List Parameter
  /-- The parameters of the constructor. -/
  constructorParameters : List Parameter
  /-- Whether the object is made without naming its type. -/
  onlyNew : Bool
deriving Repr

/-- The parameters with their types adapted. -/
def adaptParameters (policy : TypePolicy) (ps : List Parameter) : List Parameter :=
  ps.map fun p => { p with type := policy.adapt p.type }

/-- The text of the type a caller gets, behind the wait for a task. -/
def awaitedType (returnType : TypeExpr) : List Char :=
  if returnType.name == taskName then
    if returnType.hasGenerics then TypeExpr.listChars returnType.genericArguments
    else "void".toList
  else returnType.chars

/-- What the test is made of under the given settings. -/
def plan (t : TestMethod) (settings : GenerateSettings) : Plan :=
  let policy := TypePolicy.ofSettings settings t.genericParameters
  let returnType := policy.adapt t.method.returnType
  let result := awaitedType returnType
  { name := t.name
    hidesInherited := t.nameOverride.isNone && settings.isReserved t.method.name
    isAsync := returnType.name == taskName
    resultType := if result == "void".toList then none else some result
    classType := .generic t.subject.name (policy.adaptAll t.subject.generics)
    methodType := .generic t.method.name (policy.adaptAll t.method.generics)
    methodParameters := adaptParameters policy t.method.parameters
    constructorParameters :=
      adaptParameters policy (primaryConstructor t.subject).parameters
    onlyNew := settings.useOnlyNewOperator }

namespace Plan

/-- The body of the test. -/
def body (p : Plan) : Body :=
  let target := Expression.construct (if p.onlyNew then none else some p.classType)
    (p.constructorParameters.map (Argument.ofParameter .target))
  let invocation := Expression.call p.isAsync p.methodType
    (p.methodParameters.map (Argument.ofParameter .method))
  let expected :=
    p.resultType.toList.map fun type =>
      Statement.declare type "expected".toList (some .default)
  { arrange :=
      [expected,
        p.methodParameters.map (Statement.ofParameter .method),
        p.constructorParameters.map (Statement.ofParameter .target),
        [.declare p.classType.chars "target".toList (some target)]]
    act :=
      match p.resultType with
      | some type => .declare type "actual".toList (some invocation)
      | none => .run invocation
    assertion := p.resultType.map fun _ => .assertEqual }

/-- The header of the test method. -/
def header (p : Plan) : List Char :=
  "public ".toList
    ++ (if p.hidesInherited then "new ".toList else [])
    ++ (if p.isAsync then "async Task" else "void").toList
    ++ ' ' :: p.name.toList ++ "()".toList

end Plan

/-- The text of the test, indented by one level. -/
def chars (t : TestMethod) (settings : GenerateSettings) : List Char :=
  let plan := t.plan settings
  let indent := settings.indent 1
  indent ++ "[Fact]\n".toList
    ++ indent ++ plan.header ++ ['\n']
    ++ indent ++ ['{', '\n']
    ++ plan.body.chars (settings.indent 2)
    ++ indent ++ ['}']

end TestMethod

end TestScaffold.Suite
