import TestScaffold.Proofs.Suite.Scope
import TestScaffold.Proofs.Suite.TypePolicy
/-!
# Methods without a result

A method that returns `void`, or a plain `Task`, gives nothing that could be compared. Its test
should therefore expect nothing, whatever the settings are.

Whether a test expects something is read off the text of the return type behind the type policy
(`TestMethod.resultType_plan`), and there the two types fare differently. A task is recognised by
its name, which a nullable mark does not change. `void` is recognised by its whole text. No
policy erases it, as no generic parameter may have that name (`void_notMem_genericParameters`);
but one that adds marks and does not exempt `void` turns it into `void?`, and a `void?` is
expected (`expects_nothing_iff`, `void_expected`). In the text of the test this comes down to
which of its lines end statements (`TestMethod.filter_lines_eq`): those with a result or those
without.
-/

namespace TestScaffold.Suite

open TypeExpr (named)

/-- **A test expects nothing**: it declares neither an expected result nor an actual one, and
compares nothing. -/
structure Body.ExpectsNothing (b : Body) : Prop where
  /-- No expected result is declared. -/
  expected : "expected".toList ∉ b.locals
  /-- No actual result is declared. -/
  actual : "actual".toList ∉ b.locals
  /-- Nothing is compared. -/
  assertion : Statement.assertEqual ∉ b.statements

/-! ## Plain types behind a policy -/

/-- **A plain type that is not erased** keeps its name. It gets a mark when marks are added and
it is not exempt. -/
theorem TypePolicy.adapt_named (p : TypePolicy) {name : String} (h : name ∉ p.erased) :
    p.adapt (named name)
      = (named name).withNullable (decide (p.nullability = .add ∧ name ∉ p.exempt)) := by
  have herase : p.erase (named name) = named name := by
    rw [erase_eq, named, eraseName_eq_ite, if_neg h]
    rfl
  unfold adapt applyNullability
  rw [herase]
  cases p.nullability with
  | keep => rfl
  | strip => simp [setNullable, named, TypeExpr.withNullable]
  | add => simp [setNullable, named, TypeExpr.withNullable]

/-- No policy erases `void`. -/
theorem void_notMem_genericParameters (t : TestMethod) : "void" ∉ t.genericParameters := fun h =>
  absurd (isGenericParameterName_of_mem_all (mem_sortNames.mp h)) (by decide)

theorem notMem_erased {settings : GenerateSettings} {generics : List String} {name : String}
    (h : name ∉ generics) : name ∉ (TypePolicy.ofSettings settings generics).erased := by
  unfold TypePolicy.ofSettings
  dsimp only
  split
  · exact h
  · exact List.not_mem_nil

/-! ## When something is expected -/

section

variable {t : TestMethod} {settings : GenerateSettings}

/-- **A test expects nothing exactly when there is no result.** -/
theorem expectsNothing_iff :
    (t.plan settings).body.ExpectsNothing ↔ (t.plan settings).resultType = none := by
  have hlocals := locals_body t settings
  have hstatements := (t.plan settings).statements_body
  constructor
  · intro h
    by_contra hresult
    obtain ⟨type, htype⟩ := Option.ne_none_iff_exists'.mp hresult
    exact h.expected (by rw [hlocals, htype]; exact List.mem_cons_self)
  · intro hresult
    -- the words are no locals of parameters, and there is one other local
    have hword : ∀ word : List Char, '_' ∉ word → word ≠ "target".toList →
        word ∉ (t.plan settings).body.locals := by
      intro word hplain htarget
      rw [hlocals, hresult]
      simp only [Option.toList_none, List.map_nil, List.nil_append, List.mem_append, List.mem_map,
        List.mem_singleton, not_or, not_exists, not_and]
      exact ⟨fun p _ => localName_ne hplain, fun p _ => localName_ne hplain, htarget⟩
    refine ⟨hword _ (by decide) (by decide), hword _ (by decide) (by decide), ?_⟩
    have hdeclares : ∀ role (p : Parameter), Statement.ofParameter role p ≠ .assertEqual := by
      simp [Statement.ofParameter]
    rw [hstatements]
    simp [TestMethod.Plan.expectation, TestMethod.Plan.construction, TestMethod.Plan.body, hresult,
      hdeclares]

end

/-- **The result of a method that returns `void`**: none, unless it gets a mark. It is not
awaited. -/
theorem resultType_of_void {t : TestMethod} (settings : GenerateSettings)
    (h : t.method.returnType = named "void") :
    (t.plan settings).resultType
        = (if settings.nullability = .add ∧ "void" ∉ settings.nullabilityExemptTypes
          then some "void?".toList else none)
      ∧ (t.plan settings).isAsync = false := by
  have hadapt : (TypePolicy.ofSettings settings t.genericParameters).adapt (named "void")
      = (named "void").withNullable
        (decide (settings.nullability = .add ∧ "void" ∉ settings.nullabilityExemptTypes)) :=
    TypePolicy.adapt_named _ (notMem_erased (void_notMem_genericParameters t))
  rw [t.resultType_plan, t.isAsync_plan, h, hadapt]
  refine ⟨?_, rfl⟩
  by_cases hmark : settings.nullability = .add ∧ "void" ∉ settings.nullabilityExemptTypes
  · simp only [hmark]
    decide
  · simp only [hmark, decide_false, if_false]
    decide

/-- **The result of a method that returns a plain task**: none. It is awaited, as a mark leaves
the name of its type. -/
theorem resultType_of_task {t : TestMethod} (settings : GenerateSettings)
    (h : t.method.returnType = named "Task") (hname : "Task" ∉ t.genericParameters) :
    (t.plan settings).resultType = none ∧ (t.plan settings).isAsync = true := by
  have hadapt := TypePolicy.adapt_named
    (TypePolicy.ofSettings settings t.genericParameters) (notMem_erased hname)
  rw [t.resultType_plan, t.isAsync_plan, h, hadapt]
  exact ⟨rfl, rfl⟩

/-- The header of an asynchronous test. -/
theorem TestMethod.Plan.header_of_isAsync {p : TestMethod.Plan} (h : p.isAsync = true) :
    p.header = "public ".toList ++ (if p.hidesInherited then "new ".toList else [])
      ++ "async Task".toList ++ ' ' :: p.name.toList ++ "()".toList := by
  unfold header
  rw [if_pos h]

/-- The text of a call that is awaited. -/
theorem Expression.await_prefix (method : TypeExpr) (arguments : List Argument) :
    "await target.".toList <+: (Expression.call true method arguments).chars := by
  have hwords : "await target.".toList = "await ".toList ++ "target.".toList := by decide
  have hcall : (Expression.call true method arguments).chars
      = "await ".toList ++ "target.".toList ++ method.chars
        ++ '(' :: Argument.listChars arguments ++ [')'] := rfl
  rw [hwords, hcall, List.append_assoc _ method.chars, List.append_assoc _ (method.chars ++ _)]
  exact List.prefix_append ..

/-- **Methods without a result expect nothing**, with one exception. The test of a method that
returns `void` expects something exactly when marks are added to types and `void` is not exempt
from it; what is expected is a `void?`. The test of a method that returns a plain task, which is
not the name of a generic parameter, expects nothing under all settings; it is asynchronous and
awaits the call. In the text of the test the lines that end statements are therefore those of a
test without a result, or of one whose result is a `void?`. -/
theorem expects_nothing_iff (t : TestMethod) (settings : GenerateSettings) :
    let plan := t.plan settings
    (t.method.returnType = named "void" →
      (plan.body.ExpectsNothing ↔
        ¬(settings.nullability = .add ∧ "void" ∉ settings.nullabilityExemptTypes))
      ∧ (t.lines settings).filter (fun line => EndsStatement line)
        = (t.statementTexts settings false
            (if settings.nullability = .add ∧ "void" ∉ settings.nullabilityExemptTypes
              then some "void?".toList else none)).map (settings.indent 2 ++ ·))
    ∧ (t.method.returnType = named "Task" → "Task" ∉ t.genericParameters →
      plan.body.ExpectsNothing
      ∧ plan.header = "public ".toList ++ (if plan.hidesInherited then "new ".toList else [])
          ++ "async Task".toList ++ ' ' :: t.name.toList ++ "()".toList
      ∧ (∃ arguments, plan.body.act = .run (.call true plan.methodType arguments))
      ∧ "await target.".toList <+: plan.body.act.chars
      ∧ (t.lines settings).filter (fun line => EndsStatement line)
        = (t.statementTexts settings true none).map (settings.indent 2 ++ ·))
    ∧ t.chars settings ++ ['\n'] = (t.lines settings).flatMap (· ++ ['\n']) := by
  intro plan
  refine ⟨fun h => ?_, fun h hname => ?_, t.chars_append_newline settings⟩
  · obtain ⟨hresult, hasync⟩ := resultType_of_void settings h
    rw [expectsNothing_iff, t.filter_lines_eq, hasync, hresult]
    refine ⟨?_, rfl⟩
    split_ifs with hmark
    · exact iff_of_false (by simp) (not_not.mpr hmark)
    · exact iff_of_true rfl hmark
  · obtain ⟨hresult, hasync⟩ := resultType_of_task settings h hname
    have hact : plan.body.act = .run (.call true plan.methodType
        (plan.methodParameters.map (Argument.ofParameter .method))) := by
      unfold TestMethod.Plan.body
      rw [show plan.resultType = none from hresult, show plan.isAsync = true from hasync]
    have htext : plan.body.act.chars = (Expression.call true plan.methodType
        (plan.methodParameters.map (Argument.ofParameter .method))).chars ++ [';'] := by
      rw [hact]
      rfl
    have hlines := t.filter_lines_eq settings
    rw [hasync, hresult] at hlines
    exact ⟨expectsNothing_iff.mpr hresult, TestMethod.Plan.header_of_isAsync hasync, ⟨_, hact⟩,
      htext ▸ (Expression.await_prefix _ _).trans (List.prefix_append _ _), hlines⟩

/-! ## A counter and a worker -/

/-- The test of `void Reset()` in a class `Counter`. -/
def resetTest : TestMethod :=
  { subject := { name := "Counter", keywords := some ["public"] }, method := plainMethod "Reset" }

/-- The test of `Task RunAsync()` in a class `Worker`. -/
def runTest : TestMethod :=
  { subject := { name := "Worker", keywords := some ["public"] }
    method := { plainMethod "RunAsync" with returnType := named "Task" } }

/-- Settings that add marks to all types. -/
def markingSettings : GenerateSettings :=
  { nullability := .add, nullabilityExemptTypes := [] }

/-- With marks added to all types, the worker's test still expects nothing and awaits the call;
the counter's test expects nothing when `void` is exempt. -/
theorem expects_nothing_iff_worker :
    resetTest.method.returnType = named "void"
    ∧ (resetTest.plan { nullability := .add }).body.ExpectsNothing
    ∧ (resetTest.lines { nullability := .add }).filter (fun line => EndsStatement line)
      = ["        Counter target = new Counter();", "        target.Reset();"].map String.toList
    ∧ runTest.method.returnType = named "Task" ∧ "Task" ∉ runTest.genericParameters
    ∧ (runTest.plan markingSettings).body.ExpectsNothing
    ∧ (runTest.plan markingSettings).header = "public async Task RunAsync()".toList
    ∧ (runTest.plan markingSettings).body.act.chars = "await target.RunAsync();".toList
    ∧ (runTest.lines markingSettings).filter (fun line => EndsStatement line)
      = ["        Worker target = new Worker();", "        await target.RunAsync();"].map
          String.toList := by
  have hvoid : resetTest.method.returnType = named "void" := rfl
  have htask : runTest.method.returnType = named "Task" ∧ "Task" ∉ runTest.genericParameters :=
    ⟨rfl, by decide⟩
  obtain ⟨hreset, hresetLines⟩ := (expects_nothing_iff resetTest { nullability := .add }).1 hvoid
  obtain ⟨hnothing, hheader, -, -, hrunLines⟩ :=
    (expects_nothing_iff runTest markingSettings).2.1 htask.1 htask.2
  exact ⟨hvoid, hreset.mpr (by decide), hresetLines.trans (by decide), htask.1, htask.2, hnothing,
    hheader.trans (by decide), by decide, hrunLines.trans (by decide)⟩

/-- **A `void?` is expected** of the counter when marks are added to all types, which the
settings allow: its test declares an expected and an actual result and compares them. -/
theorem void_expected :
    markingSettings.validate = .ok ()
    ∧ resetTest.method.returnType = named "void"
    ∧ ¬(resetTest.plan markingSettings).body.ExpectsNothing
    ∧ (resetTest.plan markingSettings).body.statements.map Statement.chars
      = ["void? expected = default;", "Counter target = new Counter();",
        "void? actual = target.Reset();", "Assert.Equal(expected, actual);"].map String.toList := by
  refine ⟨by decide +kernel, rfl, fun h => ?_, by decide⟩
  exact h.expected (by decide)

end TestScaffold.Suite
