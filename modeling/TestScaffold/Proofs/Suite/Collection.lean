import TestScaffold.Proofs.Suite.TestNames
/-!
# Which tests are written

Tests are collected in three rounds: the testable classes of a document, the testable
methods of a class, and the overloads of each method. What comes out is said without these
rounds. A class has a test class exactly when it is testable and has a testable method
(`testClasses_eq`). The tests of a class stand method by method, in the order in which the
names of the methods first appear, the overloads of one name in the order of the class and
under consecutive numbers (`map_testsOf`); and as grouping loses nothing, every testable
method is tested once (`perm_map_method_testsOf`).

When no test class comes out there is a reason, and the reasons tell apart how far the
collection came (`missingReason?_eq`).
-/

namespace TestScaffold

/-- **A testable declaration** is public and neither static nor abstract. -/
def Testable {α : Type} [HasKeywords α] (declaration : α) : Prop :=
  "public" ∈ keywordList declaration ∧ "static" ∉ keywordList declaration
    ∧ "abstract" ∉ keywordList declaration

instance {α : Type} [HasKeywords α] : DecidablePred (Testable (α := α)) :=
  fun _ => inferInstanceAs (Decidable (_ ∧ _ ∧ _))

theorem isTestable_iff {α : Type} [HasKeywords α] {declaration : α} :
    isTestable declaration = true ↔ Testable declaration := by
  simp [isTestable, isPublic, isStatic, isAbstract, hasKeyword, Testable, and_assoc]

theorem isTestable_eq_decide {α : Type} [HasKeywords α] :
    (isTestable : α → Bool) = fun declaration => decide (Testable declaration) := by
  funext declaration
  rw [← Bool.decide_coe (isTestable declaration)]
  exact decide_eq_decide.mpr isTestable_iff

namespace Suite

/-! ## The tests of a class -/

/-- **Every testable method is tested once.** -/
theorem perm_map_method_testsOf (c : Class) :
    ((testsOf c).map TestMethod.method).Perm (c.methods.filter isTestable) := by
  have hmethods : ∀ (methods : List Method) (name : String),
      (methods.mapIdx fun i m => (m, overloadName name i)).map Prod.fst = methods :=
    fun methods name => List.ext_getElem (by simp) (by simp)
  have h := congrArg (List.map Prod.fst) (map_testsOf c)
  rw [List.map_map, List.map_flatMap] at h
  simp only [hmethods] at h
  have hgroups := perm_groupByKey Method.name (c.methods.filter isTestable)
  rw [groupByKey_eq, List.flatMap_map] at hgroups
  exact h ▸ hgroups

/-! ## The test classes of a document -/

/-- A class has tests when it has a testable method. -/
theorem testsOf_eq_nil_iff {c : Class} : testsOf c = [] ↔ ∀ m ∈ c.methods, ¬Testable m := by
  rw [← List.map_eq_nil_iff (f := TestMethod.method), ← List.length_eq_zero_iff,
    (perm_map_method_testsOf c).length_eq, List.length_eq_zero_iff, List.filter_eq_nil_iff]
  simp only [isTestable_iff]

/-- **The classes with a test class** are the testable ones with a testable method. -/
theorem testClasses_eq (classes : List Class) :
    testClasses classes
      = (classes.filter fun c => Testable c ∧ ∃ m ∈ c.methods, Testable m).map
          TestClass.ofClass := by
  have htests : ∀ c : Class, (!(TestClass.ofClass c).tests.isEmpty)
      = decide (∃ m ∈ c.methods, Testable m) := fun c => by
    rw [Bool.eq_iff_iff, decide_eq_true_iff, Bool.not_eq_true', ← Bool.not_eq_true,
      List.isEmpty_iff]
    show ¬testsOf c = [] ↔ _
    rw [testsOf_eq_nil_iff]
    simp only [not_forall, not_not, exists_prop]
  rw [testClasses, List.filter_map, List.filter_filter]
  refine congrArg _ (List.filter_congr fun c _ => ?_)
  rw [Function.comp_apply, htests, isTestable_eq_decide, Bool.decide_and, Bool.and_comm]

theorem testClasses_eq_nil_iff {classes : List Class} :
    testClasses classes = [] ↔
      ∀ c ∈ classes, Testable c → ∀ m ∈ c.methods, ¬Testable m := by
  rw [testClasses_eq, List.map_eq_nil_iff, List.filter_eq_nil_iff]
  simp only [decide_eq_true_iff, not_and, not_exists]

/-! ## Why there is no test class -/

/-- **The reason why there is no test class**, as far as the collection came. -/
theorem missingReason?_eq (classes : List Class) :
    missingReason? classes (testClasses classes)
      = if classes = [] then some .noClass
        else if ∀ c ∈ classes, ¬Testable c then some .noTestableClass
        else if testClasses classes = [] then some .noTestableMethod
        else none := by
  have hclasses : classes.isEmpty = true ↔ classes = [] := List.isEmpty_iff
  have htests : (testClasses classes).isEmpty = true ↔ testClasses classes = [] :=
    List.isEmpty_iff
  have hnone : (!classes.any isTestable) = true ↔ ∀ c ∈ classes, ¬Testable c := by
    simp only [Bool.not_eq_true', List.any_eq_false, isTestable_iff]
  simp only [missingReason?, hclasses, hnone, htests]

variable {classes : List Class}

theorem testClasses_eq_nil_of_forall_not (h : ∀ c ∈ classes, ¬Testable c) :
    testClasses classes = [] :=
  testClasses_eq_nil_iff.mpr fun c hc htestable => absurd htestable (h c hc)

/-- No reason is given exactly when there is a test class. -/
theorem missingReason?_eq_none_iff :
    missingReason? classes (testClasses classes) = none ↔ testClasses classes ≠ [] := by
  rw [missingReason?_eq]
  split_ifs with hempty hnone htests
  · simp [hempty, testClasses]
  · simp [testClasses_eq_nil_of_forall_not hnone]
  · simp [htests]
  · simp [htests]

theorem missingReason?_eq_noClass_iff :
    missingReason? classes (testClasses classes) = some .noClass ↔ classes = [] := by
  rw [missingReason?_eq]
  split_ifs with hempty <;> simp [hempty]

theorem missingReason?_eq_noTestableClass_iff :
    missingReason? classes (testClasses classes) = some .noTestableClass ↔
      classes ≠ [] ∧ ∀ c ∈ classes, ¬Testable c := by
  rw [missingReason?_eq]
  split_ifs with hempty hnone htests
  · simp [hempty]
  · exact ⟨fun _ => ⟨hempty, hnone⟩, fun _ => rfl⟩
  · simp [hnone]
  · simp [hnone]

theorem missingReason?_eq_noTestableMethod_iff :
    missingReason? classes (testClasses classes) = some .noTestableMethod ↔
      (∃ c ∈ classes, Testable c)
        ∧ ∀ c ∈ classes, Testable c → ∀ m ∈ c.methods, ¬Testable m := by
  rw [missingReason?_eq, ← testClasses_eq_nil_iff]
  split_ifs with hempty hnone htests
  · simp [hempty]
  · simpa using fun c hc htestable => absurd htestable (hnone c hc)
  · simpa [htests] using hnone
  · simp [htests]

/-- **The collection of tests is complete and stable.** There is one test class for each
testable class with a testable method, in the order of the classes. The tests of a class
test each of its testable methods once: the methods of one name together, in the order in
which the names first appear, and the methods of a name in the order of the class, the
first one under that name and the others under the name with their number behind it. No
reason is given for a lack of test classes exactly when there are some; otherwise the
reason says whether there is no class, no testable class or no testable method. -/
theorem collection_complete (classes : List Class) :
    testClasses classes
        = (classes.filter fun c => Testable c ∧ ∃ m ∈ c.methods, Testable m).map TestClass.ofClass
    ∧ (∀ c : Class,
        let tests := (TestClass.ofClass c).tests
        let methods := c.methods.filter fun m => Testable m
        let names := testedNames c
        (tests.map TestMethod.method).Perm methods
        ∧ (names.Nodup ∧ (∀ name, name ∈ names ↔ name ∈ methods.map Method.name)
          ∧ names.Pairwise fun a b =>
              (methods.map Method.name).idxOf a < (methods.map Method.name).idxOf b)
        ∧ tests.map (fun t => (t.method, t.name)) = names.flatMap fun name =>
            (methods.filter fun m => m.name = name).mapIdx fun i m =>
              (m, if i = 0 then name else name ++ toString (i + 1)))
    ∧ (missingReason? classes (testClasses classes) = none ↔ testClasses classes ≠ [])
    ∧ (missingReason? classes (testClasses classes) = some .noClass ↔ classes = [])
    ∧ (missingReason? classes (testClasses classes) = some .noTestableClass ↔
        classes ≠ [] ∧ ∀ c ∈ classes, ¬Testable c)
    ∧ (missingReason? classes (testClasses classes) = some .noTestableMethod ↔
        (∃ c ∈ classes, Testable c)
          ∧ ∀ c ∈ classes, Testable c → ∀ m ∈ c.methods, ¬Testable m) := by
  have hmethods : ∀ c : Class,
      c.methods.filter isTestable = c.methods.filter fun m => Testable m := fun c => by
    rw [isTestable_eq_decide]
  refine ⟨testClasses_eq classes, fun c => ?_, missingReason?_eq_none_iff,
    missingReason?_eq_noClass_iff, missingReason?_eq_noTestableClass_iff,
    missingReason?_eq_noTestableMethod_iff⟩
  have hnames : testedNames c
      = ((c.methods.filter fun m => Testable m).map Method.name).eraseDups := by
    rw [testedNames, hmethods]
  refine ⟨hmethods c ▸ perm_map_method_testsOf c, ?_, hmethods c ▸ map_testsOf c⟩
  rw [hnames]
  exact ⟨nodup_eraseDups _, fun name => List.mem_eraseDups, pairwise_idxOf_eraseDups _⟩

end Suite

end TestScaffold
