import Mathlib.Data.List.Basic
import TestScaffold.Suite.TestMethod
/-!
# The lines of a test

The text of a test is made of lines (`TestMethod.chars_append_newline`), and those that end in a
semicolon are its statements (`TestMethod.filter_lines`). That alone says little about the text:
the statements stand on both sides, and what they are printed as is left open.

What they are printed as is said from the parameters. A local is declared with the type of its
parameter behind the type policy and `default` for a value, an `out` parameter without a value;
it is passed behind `out` or `ref` when its parameter has that, with commas in between. From
these the text of every statement is written down (`TestMethod.statementTexts`), and the lines
of a test that end statements are these texts (`TestMethod.filter_lines_eq`).
-/

namespace TestScaffold.Suite

/-! ## Lines -/

/-- The lines of a block behind an indentation: its statements and an empty line. An empty block
has no lines. -/
def Body.blockLines (indent : List Char) (block : List Statement) : List (List Char) :=
  if block.isEmpty then [] else (block.map fun s => indent ++ s.chars) ++ [[]]

/-- The lines of a body behind an indentation. -/
def Body.lines (indent : List Char) (b : Body) : List (List Char) :=
  (indent ++ "// arrange".toList) :: b.arrange.flatMap (blockLines indent)
    ++ (indent ++ "// act".toList) :: blockLines indent [b.act]
    ++ (indent ++ "// assert".toList) :: b.assertion.toList.map fun s => indent ++ s.chars

/-- The lines of a test. -/
def TestMethod.lines (t : TestMethod) (settings : GenerateSettings) : List (List Char) :=
  [settings.indent 1 ++ "[Fact]".toList, settings.indent 1 ++ (t.plan settings).header,
      settings.indent 1 ++ ['{']]
    ++ (t.plan settings).body.lines (settings.indent 2) ++ [settings.indent 1 ++ ['}']]

/-- **A line ends a statement**: it ends in a semicolon. -/
def EndsStatement (line : List Char) : Prop :=
  line.getLast? = some ';'

instance : DecidablePred EndsStatement :=
  fun line => inferInstanceAs (Decidable (line.getLast? = some ';'))

section

variable (indent : List Char)

/-- Lines with line feeds between them and behind the last one. -/
theorem intercalate_append_newline :
    ∀ {lines : List (List Char)}, lines ≠ [] →
      List.intercalate ['\n'] lines ++ ['\n'] = lines.flatMap (· ++ ['\n'])
  | [line], _ => by simp [List.intercalate_singleton]
  | line :: next :: lines, _ => by
    rw [List.intercalate_cons_cons, List.append_assoc,
      intercalate_append_newline (List.cons_ne_nil next lines)]
    rfl

theorem Body.blockChars_eq (block : List Statement) :
    blockChars indent block = (blockLines indent block).flatMap (· ++ ['\n']) := by
  unfold blockChars blockLines
  split
  · rfl
  · rename_i hne
    have hlines : (block.map fun s => indent ++ s.chars) ≠ [] := by simpa using hne
    rw [List.flatMap_append, ← intercalate_append_newline hlines]
    simp

/-- The text of a body is its lines with a line feed behind each. -/
theorem Body.chars_eq (b : Body) : b.chars indent = (b.lines indent).flatMap (· ++ ['\n']) := by
  have hblocks : b.arrange.flatMap (blockChars indent)
      = (b.arrange.flatMap (blockLines indent)).flatMap (· ++ ['\n']) := by
    rw [List.flatMap_assoc]
    exact List.flatMap_congr fun block _ => blockChars_eq indent block
  unfold Body.chars Body.lines
  simp only [hblocks, blockChars_eq, List.flatMap_append, List.flatMap_cons, List.flatMap_map,
    List.append_assoc, List.cons_append]
  rfl

/-- An indentation does not matter for how a line ends. -/
theorem endsStatement_append_iff {line : List Char} (hne : line ≠ []) :
    EndsStatement (indent ++ line) ↔ EndsStatement line := by
  unfold EndsStatement
  rw [List.getLast?_append_of_ne_nil _ hne]

/-- The line of a statement ends it. -/
theorem Statement.endsStatement (s : Statement) : EndsStatement (indent ++ s.chars) := by
  have hchars : ∃ front, s.chars = front ++ [';'] := by
    cases s with
    | declare type name value => cases value <;> exact ⟨_, rfl⟩
    | run value => exact ⟨_, rfl⟩
    | assertEqual => exact ⟨"Assert.Equal(expected, actual)".toList, by decide⟩
  obtain ⟨front, hfront⟩ := hchars
  rw [EndsStatement, hfront, ← List.append_assoc, List.getLast?_concat]

theorem filter_statementLines (statements : List Statement) :
    (statements.map fun s => indent ++ s.chars).filter (fun line => EndsStatement line)
      = statements.map fun s => indent ++ s.chars := by
  rw [List.filter_eq_self, List.forall_mem_map]
  exact fun s _ => decide_eq_true (s.endsStatement indent)

theorem Body.filter_blockLines (block : List Statement) :
    (blockLines indent block).filter (fun line => EndsStatement line)
      = block.map fun s => indent ++ s.chars := by
  unfold blockLines
  split
  · rename_i hnil
    rw [List.isEmpty_iff.mp hnil]
    rfl
  · rw [List.filter_append, filter_statementLines]
    exact List.append_nil _

theorem filter_cons_of_not_endsStatement (line : List Char) {lines : List (List Char)}
    (h : line ≠ [] ∧ ¬EndsStatement line) :
    ((indent ++ line) :: lines).filter (fun line => EndsStatement line)
      = lines.filter fun line => EndsStatement line :=
  List.filter_cons_of_neg (by simpa [endsStatement_append_iff indent h.1] using h.2)

/-- The lines of a body that end statements are its statements. -/
theorem Body.filter_lines (b : Body) :
    (b.lines indent).filter (fun line => EndsStatement line)
      = b.statements.map fun s => indent ++ s.chars := by
  have hblocks : (b.arrange.flatMap (blockLines indent)).filter (fun line => EndsStatement line)
      = b.arrange.flatten.map fun s => indent ++ s.chars := by
    rw [List.filter_flatMap, List.map_flatten, List.flatMap_def]
    simp only [filter_blockLines]
  unfold Body.lines Body.statements
  rw [List.filter_append, List.filter_append,
    filter_cons_of_not_endsStatement indent "// arrange".toList (by decide),
    filter_cons_of_not_endsStatement indent "// act".toList (by decide),
    filter_cons_of_not_endsStatement indent "// assert".toList (by decide),
    hblocks, filter_blockLines, filter_statementLines, List.map_append, List.map_cons,
    List.append_assoc]
  rfl

end

namespace TestMethod

theorem Plan.not_endsStatement_header (p : Plan) : p.header ≠ [] ∧ ¬EndsStatement p.header := by
  have hlist : "()".toList ≠ [] ∧ "()".toList.getLast? = some ')' := by decide
  have hlast : p.header.getLast? = some ')' := by
    unfold header
    rw [List.getLast?_append_of_ne_nil _ hlist.1, hlist.2]
  refine ⟨fun hnil => ?_, by simp [EndsStatement, hlast]⟩
  rw [hnil] at hlast
  cases hlast

variable (t : TestMethod) (settings : GenerateSettings)

/-- **A test is made of lines.** There is no line feed behind the last one. -/
theorem chars_append_newline :
    t.chars settings ++ ['\n'] = (t.lines settings).flatMap (· ++ ['\n']) := by
  unfold TestMethod.chars TestMethod.lines
  simp only [Body.chars_eq, List.flatMap_append, List.flatMap_cons, List.flatMap_nil,
    List.append_assoc, List.append_nil, List.cons_append, List.nil_append]
  rfl

/-- **The lines of a test that end statements** are the statements of its body. -/
theorem filter_lines :
    (t.lines settings).filter (fun line => EndsStatement line)
      = (t.plan settings).body.statements.map fun s => settings.indent 2 ++ s.chars := by
  have hheader := (t.plan settings).not_endsStatement_header
  unfold lines
  rw [List.filter_append, List.filter_append, Body.filter_lines,
    filter_cons_of_not_endsStatement _ "[Fact]".toList (by decide),
    filter_cons_of_not_endsStatement _ _ hheader,
    filter_cons_of_not_endsStatement _ ['{'] (by decide),
    filter_cons_of_not_endsStatement _ ['}'] (by decide)]
  exact List.append_nil _

end TestMethod

/-! ## The statements of a test -/

namespace TestMethod.Plan

variable (p : Plan)

/-- The declaration of the expected result, if there is one. -/
def expectation : List Statement :=
  p.resultType.toList.map fun type => .declare type "expected".toList (some .default)

/-- The declaration of the object under test. -/
def construction : Statement :=
  .declare p.classType.chars "target".toList
    (some (.construct (if p.onlyNew then none else some p.classType)
      (p.constructorParameters.map (Argument.ofParameter .target))))

/-- **The statements of a test in order.** -/
theorem statements_body :
    p.body.statements
      = p.expectation ++ p.methodParameters.map (Statement.ofParameter .method)
        ++ p.constructorParameters.map (Statement.ofParameter .target) ++ [p.construction]
        ++ p.body.act :: p.body.assertion.toList := by
  unfold Body.statements body expectation construction
  simp

end TestMethod.Plan

/-! ## What is passed for parameters -/

theorem isOut_iff {p : Parameter} : p.isOut = true ↔ "out" ∈ keywordList p :=
  List.contains_iff_mem

/-- **What is repeated of a parameter where it is passed**: `out` if the parameter has it, or
else `ref` if it has that. -/
theorem callModifier_eq (p : Parameter) :
    p.callModifier
      = if "out" ∈ keywordList p then "out " else if "ref" ∈ keywordList p then "ref " else "" := by
  simp only [Parameter.callModifier, isOut_iff, Parameter.isRef, hasKeyword,
    List.contains_iff_mem]

/-- Arguments are passed for parameters under their own names and modifiers, whatever becomes of
their types. -/
theorem map_ofParameter_adaptParameters (role : Role) (policy : TypePolicy)
    (ps : List Parameter) :
    (TestMethod.adaptParameters policy ps).map (Argument.ofParameter role)
      = ps.map fun p => ⟨p.callModifier, localName role p⟩ := by
  rw [TestMethod.adaptParameters, List.map_map]
  rfl

/-! ## The texts of statements and parameters -/

theorem Statement.chars_declare (type name : List Char) (value : Expression) :
    (declare type name (some value)).chars
      = type ++ ' ' :: name ++ " = ".toList ++ value.chars ++ [';'] :=
  rfl

/-- A new object is made of a type or without one. -/
theorem Expression.chars_construct (type : Option TypeExpr) (arguments : List Argument) :
    (construct type arguments).chars
      = "new".toList ++ (type.toList.flatMap fun type => ' ' :: type.chars)
        ++ '(' :: Argument.listChars arguments ++ [')'] := by
  have hnew : "new(".toList = "new".toList ++ ['('] ∧ "new ".toList = "new".toList ++ [' '] := by
    decide
  cases type with
  | none =>
    show "new(".toList ++ _ ++ _ = _
    rw [hnew.1, List.append_assoc _ ['(']]
    rfl
  | some type =>
    show "new ".toList ++ _ ++ _ ++ _ = _
    rw [hnew.2]
    simp

namespace TestMethod

/-- The local for a parameter, which starts with a word. -/
def localText (word : String) (p : Parameter) : List Char :=
  word.toList ++ '_' :: p.name.toList

/-- **What is passed for a parameter**: its local, behind the modifier that the parameter has. -/
def argumentText (word : String) (p : Parameter) : List Char :=
  (if "out" ∈ keywordList p then "out " else if "ref" ∈ keywordList p then "ref " else "").toList
    ++ localText word p

/-- What is passed for some parameters, in order and with commas in between. -/
def argumentsText (word : String) (ps : List Parameter) : List Char :=
  '(' :: List.intercalate [',', ' '] (ps.map (argumentText word)) ++ [')']

/-- **The declaration of the local for a parameter**: it has the type of the parameter behind a
policy, and the default value unless the parameter is `out`. -/
def declarationText (policy : TypePolicy) (word : String) (p : Parameter) : List Char :=
  (policy.adapt p.type).chars ++ ' ' :: localText word p
    ++ (if "out" ∈ keywordList p then [';'] else " = default;".toList)

section

variable (role : Role) (policy : TypePolicy) (p : Parameter) (ps : List Parameter)

theorem chars_argument :
    Argument.chars ⟨p.callModifier, localName role p⟩ = argumentText role.text p := by
  unfold argumentText
  rw [Argument.chars, callModifier_eq]
  rfl

/-- **The text of the arguments for parameters**, whatever becomes of their types. -/
theorem listChars_ofParameter :
    Argument.listChars ((adaptParameters policy ps).map (Argument.ofParameter role))
      = List.intercalate [',', ' '] (ps.map (argumentText role.text)) := by
  have hchars : Argument.chars ∘ (fun p : Parameter => ⟨p.callModifier, localName role p⟩)
      = argumentText role.text :=
    funext (chars_argument role)
  rw [map_ofParameter_adaptParameters, Argument.listChars, List.map_map, hchars]
  rfl

/-- **The text of the declaration for a parameter.** -/
theorem chars_ofParameter :
    (Statement.ofParameter role { p with type := policy.adapt p.type }).chars
      = declarationText policy role.text p := by
  have hout : ({ p with type := policy.adapt p.type } : Parameter).isOut = p.isOut := rfl
  have hvalue : " = default;".toList = " = ".toList ++ "default".toList ++ [';'] := by decide
  unfold declarationText
  rw [Statement.ofParameter, hout]
  by_cases h : "out" ∈ keywordList p
  · rw [if_pos h, if_pos (isOut_iff.mpr h)]
    rfl
  · rw [if_neg h, if_neg (mt isOut_iff.mp h), hvalue, ← List.append_assoc, ← List.append_assoc]
    rfl

theorem map_chars_ofParameter :
    ((adaptParameters policy ps).map (Statement.ofParameter role)).map Statement.chars
      = ps.map (declarationText policy role.text) := by
  rw [adaptParameters, List.map_map, List.map_map]
  exact List.map_congr_left fun p _ => chars_ofParameter role policy p

end

/-! ## The texts of a test -/

variable (t : TestMethod) (settings : GenerateSettings)

/-- **The text that makes the object under test**, with all that the constructor takes. -/
def constructionText : List Char :=
  let policy := TypePolicy.ofSettings settings t.genericParameters
  let type := (TypeExpr.generic t.subject.name (policy.adaptAll t.subject.generics)).chars
  type ++ " target = new".toList ++ (if settings.useOnlyNewOperator then [] else ' ' :: type)
    ++ argumentsText "target" (primaryConstructor t.subject).parameters ++ [';']

/-- **The text that calls the method under test**, with all that the method takes. -/
def callText (awaited : Bool) : List Char :=
  let policy := TypePolicy.ofSettings settings t.genericParameters
  (if awaited then "await ".toList else []) ++ "target.".toList
    ++ (TypeExpr.generic t.method.name (policy.adaptAll t.method.generics)).chars
    ++ argumentsText "method" t.method.parameters ++ [';']

/-- **The texts of the statements of a test**: an expected result of a type, the locals for the
parameters of the method and for those of the constructor, the object under test, the call and
the comparison. Without a result nothing is expected and nothing is compared. -/
def statementTexts (awaited : Bool) (result : Option (List Char)) : List (List Char) :=
  let policy := TypePolicy.ofSettings settings t.genericParameters
  (result.toList.map fun type => type ++ " expected = default;".toList)
    ++ t.method.parameters.map (declarationText policy "method")
    ++ (primaryConstructor t.subject).parameters.map (declarationText policy "target")
    ++ [t.constructionText settings]
    ++ [result.toList.flatMap (fun type => type ++ " actual = ".toList)
      ++ t.callText settings awaited]
    ++ result.toList.map fun _ => "Assert.Equal(expected, actual);".toList

theorem chars_expectation :
    (t.plan settings).expectation.map Statement.chars
      = (t.plan settings).resultType.toList.map fun type =>
          type ++ " expected = default;".toList := by
  have hwords : " expected = default;".toList
      = ' ' :: "expected".toList ++ " = ".toList ++ "default".toList ++ [';'] := by decide
  rw [Plan.expectation, List.map_map]
  refine List.map_congr_left fun type _ => ?_
  rw [Function.comp_apply, Statement.chars_declare, hwords]
  simp only [List.append_assoc]
  rfl

theorem chars_construction :
    (t.plan settings).construction.chars = t.constructionText settings := by
  have hwords : " target = new".toList
      = ' ' :: "target".toList ++ " = ".toList ++ "new".toList := by decide
  have hnamed : (if settings.useOnlyNewOperator then none else some (t.plan settings).classType
        ).toList.flatMap (fun type => ' ' :: type.chars)
      = if settings.useOnlyNewOperator then [] else ' ' :: (t.plan settings).classType.chars := by
    cases settings.useOnlyNewOperator <;> simp
  have harguments := listChars_ofParameter .target
    (TypePolicy.ofSettings settings t.genericParameters) (primaryConstructor t.subject).parameters
  unfold Plan.construction constructionText argumentsText
  rw [Statement.chars_declare, Expression.chars_construct, hwords]
  show _ ++ (_ ++ List.flatMap _ (Option.toList (if settings.useOnlyNewOperator then _ else _))
    ++ '(' :: Argument.listChars ((adaptParameters _ _).map _) ++ _) ++ _ = _
  rw [hnamed, harguments]
  simp only [List.append_assoc, List.cons_append]
  rfl

theorem chars_call (awaited : Bool) :
    (Expression.call awaited (t.plan settings).methodType
        ((t.plan settings).methodParameters.map (Argument.ofParameter .method))).chars ++ [';']
      = t.callText settings awaited := by
  have harguments := listChars_ofParameter .method
    (TypePolicy.ofSettings settings t.genericParameters) t.method.parameters
  unfold callText argumentsText
  show _ ++ '(' :: Argument.listChars ((adaptParameters _ _).map _) ++ _ ++ _ = _
  rw [harguments]
  simp only [List.append_assoc]
  rfl

theorem chars_act :
    (t.plan settings).body.act.chars
      = (t.plan settings).resultType.toList.flatMap (fun type => type ++ " actual = ".toList)
        ++ t.callText settings (t.plan settings).isAsync := by
  have hwords : " actual = ".toList = ' ' :: "actual".toList ++ " = ".toList := by decide
  unfold Plan.body
  cases (t.plan settings).resultType with
  | none => exact t.chars_call settings _
  | some type =>
    show Statement.chars (.declare type _ (some _)) = _
    rw [Statement.chars_declare, List.append_assoc _ _ [';'], chars_call, hwords]
    simp

/-- **The text of every statement of a test.** -/
theorem map_chars_statements :
    (t.plan settings).body.statements.map Statement.chars
      = t.statementTexts settings (t.plan settings).isAsync (t.plan settings).resultType := by
  have hassertion : (t.plan settings).body.assertion.toList.map Statement.chars
      = (t.plan settings).resultType.toList.map fun _ =>
          "Assert.Equal(expected, actual);".toList := by
    unfold Plan.body
    cases (t.plan settings).resultType <;> rfl
  have hlocals := fun role ps => map_chars_ofParameter role
    (TypePolicy.ofSettings settings t.genericParameters) ps
  unfold statementTexts
  rw [Plan.statements_body]
  simp only [List.map_append, List.map_cons, List.map_nil, chars_expectation, chars_construction,
    chars_act, hassertion]
  show _ ++ ((adaptParameters _ _).map _).map _ ++ ((adaptParameters _ _).map _).map _ ++ _ ++ _ = _
  rw [hlocals .method, hlocals .target]
  simp only [List.append_assoc, List.singleton_append]
  rfl

/-- **The lines of a test that end statements**, from the parameters. -/
theorem filter_lines_eq :
    (t.lines settings).filter (fun line => EndsStatement line)
      = (t.statementTexts settings (t.plan settings).isAsync (t.plan settings).resultType).map
          (settings.indent 2 ++ ·) := by
  rw [filter_lines, ← map_chars_statements, List.map_map]
  rfl

end TestMethod

end TestScaffold.Suite
