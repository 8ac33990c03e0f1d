import TestScaffold.Proofs.Suite.PrimaryConstructor
/-!
# Members that are not tested

Constructors and methods that are not testable play no part in a test class. That is said of two
classes: one of them is the other one without some members of that kind, wherever they stand
among the testable ones (`Thinned`). Both give the same constructor for the object under test,
and test classes with one text.

The tests themselves differ, as each of them knows its class. But they are made of the same
things (`TestMethod.plan_of_thinned`), and nothing else shows in their text.
-/

namespace TestScaffold

/-- **Declarations without some that are not testable.** The others stay in their order. -/
inductive Thinned {α : Type} [HasKeywords α] : List α → List α → Prop
  /-- Nothing stays nothing. -/
  | nil : Thinned [] []
  /-- A declaration is kept. -/
  | keep (a : α) {l l' : List α} : Thinned l l' → Thinned (a :: l) (a :: l')
  /-- A declaration is left out that is not testable. -/
  | drop {a : α} {l l' : List α} : ¬Testable a → Thinned l l' → Thinned (a :: l) l'

/-- **Testable declarations stay.** -/
theorem Thinned.filter_isTestable {α : Type} [HasKeywords α] {l l' : List α}
    (h : Thinned l l') : l'.filter isTestable = l.filter isTestable := by
  induction h with
  | nil => rfl
  | keep a _ ih => rw [List.filter_cons, List.filter_cons, ih]
  | drop hnot _ ih => rw [ih, List.filter_cons_of_neg (mt isTestable_iff.mp hnot)]

namespace Suite

section

variable {c : Class} {constructors : List Constructor} {methods : List Method}
  (hconstructors : Thinned c.constructors constructors) (hmethods : Thinned c.methods methods)

include hconstructors

/-- Constructors that are not testable are not chosen. -/
theorem primaryConstructor_of_thinned :
    primaryConstructor { c with constructors, methods } = primaryConstructor c := by
  rw [primaryConstructor_eq, primaryConstructor_eq, hconstructors.filter_isTestable]

/-- A test of a method is made of the same things in both classes. -/
theorem TestMethod.plan_of_thinned (m : Method) (nameOverride : Option String)
    (settings : GenerateSettings) :
    TestMethod.plan ⟨{ c with constructors, methods }, m, nameOverride⟩ settings
      = TestMethod.plan ⟨c, m, nameOverride⟩ settings := by
  unfold TestMethod.plan
  dsimp only
  rw [primaryConstructor_of_thinned hconstructors]
  rfl

/-- The tests of some overloads have the same texts in both classes. -/
theorem map_chars_overloadTests_of_thinned (settings : GenerateSettings) (number : Nat)
    (overloads : List Method) :
    (overloadTests { c with constructors, methods } number overloads).map (·.chars settings)
      = (overloadTests c number overloads).map (·.chars settings) := by
  induction overloads generalizing number with
  | nil => rfl
  | cons m overloads ih =>
    rw [overloadTests, overloadTests, List.map_cons, List.map_cons, ih, TestMethod.chars,
      TestMethod.chars, TestMethod.plan_of_thinned hconstructors]

include hmethods

/-- The tests of both classes have the same texts. -/
theorem map_chars_testsOf_of_thinned (settings : GenerateSettings) :
    (testsOf { c with constructors, methods }).map (·.chars settings)
      = (testsOf c).map (·.chars settings) := by
  unfold testsOf
  rw [hmethods.filter_isTestable, List.map_flatMap, List.map_flatMap]
  exact List.flatMap_congr fun group _ =>
    map_chars_overloadTests_of_thinned hconstructors settings 0 group.2

/-- The test classes of both classes have one text. -/
theorem TestClass.bare_of_thinned (settings : GenerateSettings) :
    (ofClass { c with constructors, methods }).bare settings = (ofClass c).bare settings := by
  have htests : (ofClass { c with constructors, methods }).tests.map (·.chars settings)
      = (ofClass c).tests.map (·.chars settings) :=
    map_chars_testsOf_of_thinned hconstructors hmethods settings
  unfold bare declaration
  rw [htests]
  rfl

theorem TestClass.full_of_thinned (settings : GenerateSettings) :
    (ofClass { c with constructors, methods }).full settings = (ofClass c).full settings := by
  unfold full
  rw [TestClass.bare_of_thinned hconstructors hmethods]
  rfl

end

/-- **The object under test is made with the widest testable constructor.** If a constructor
is testable, the constructor of the class is the one of which all testable ones in front have
fewer parameters, and all those behind at most as many. Otherwise it is a public one without
parameters that is named after the class. Constructors and methods that are not testable may be
left out: neither the constructor changes, nor the text of the test class, in full or bare. -/
theorem widest_constructor_chosen (c : Class) :
    ((∃ k ∈ c.constructors, Testable k) →
      ∀ found, primaryConstructor c = found ↔
        ∃ before after, c.constructors = before ++ found :: after ∧ Testable found
          ∧ (∀ k ∈ before, Testable k → k.parameters.length < found.parameters.length)
          ∧ ∀ k ∈ after, Testable k → k.parameters.length ≤ found.parameters.length)
    ∧ ((∀ k ∈ c.constructors, ¬Testable k) →
      primaryConstructor c = { name := c.name, keywords := some ["public"], parameters := [] })
    ∧ ∀ constructors methods,
        Thinned c.constructors constructors → Thinned c.methods methods →
        let thinned := { c with constructors, methods }
        primaryConstructor thinned = primaryConstructor c
        ∧ ∀ settings,
          (TestClass.ofClass thinned).full settings = (TestClass.ofClass c).full settings
          ∧ (TestClass.ofClass thinned).bare settings = (TestClass.ofClass c).bare settings := by
  have hchosen := isWidest_primaryConstructor c
  refine ⟨fun ⟨k, hk, htestable⟩ found => ?_, fun hnone => ?_, fun _ _ hconstructors hmethods =>
    ⟨primaryConstructor_of_thinned hconstructors, fun settings =>
      ⟨TestClass.full_of_thinned hconstructors hmethods settings,
        TestClass.bare_of_thinned hconstructors hmethods settings⟩⟩⟩
  · obtain ⟨-, hwidest⟩ := hchosen.resolve_right fun h => h.1 k hk htestable
    exact ⟨fun h => h ▸ hwidest, fun h => hwidest.unique h⟩
  · exact (hchosen.resolve_left fun ⟨⟨k, hk, htestable⟩, _⟩ => hnone k hk htestable).2

/-- A constructor of `Order` with parameters of one type. -/
def orderConstructor (keywords : List String) (parameters : List String) : Constructor :=
  { name := "Order", keywords := some keywords
    parameters := parameters.map fun name => { name, type := .named "int" } }

/-- A class `Order`: the widest of its constructors is private, and the two widest public ones
have one parameter each. Of its two methods one is static. -/
def order : Class :=
  { name := "Order", keywords := some ["public"]
    constructors := [orderConstructor ["public"] [], orderConstructor ["private"] ["id", "total"],
      orderConstructor ["public"] ["id"], orderConstructor ["public"] ["total"]]
    methods := [{ plainMethod "Parse" with keywords := some ["public", "static"] },
      plainMethod "Ship"] }

/-- An order is made from its `id`, the first of the two parameters; without the private
constructor and the static method its test class has the same text. If only the private
constructor is there, an order is made from nothing. -/
theorem widest_constructor_chosen_order :
    ((∃ k ∈ order.constructors, Testable k)
      ∧ primaryConstructor order = orderConstructor ["public"] ["id"])
    ∧ (∀ k ∈ [orderConstructor ["private"] ["id", "total"]], ¬Testable k)
    ∧ primaryConstructor
        { order with constructors := [orderConstructor ["private"] ["id", "total"]] }
      = { name := "Order", keywords := some ["public"], parameters := [] }
    ∧ ∃ constructors methods,
        Thinned order.constructors constructors ∧ Thinned order.methods methods
        ∧ constructors.length = 3 ∧ methods.length = 1
        ∧ (TestClass.ofClass { order with constructors, methods }).full {}
          = (TestClass.ofClass order).full {} := by
  have htestable : ∃ k ∈ order.constructors, Testable k := by decide
  have hprivate : ∀ k ∈ [orderConstructor ["private"] ["id", "total"]], ¬Testable k := by decide
  have hconstructors : Thinned order.constructors [orderConstructor ["public"] [],
      orderConstructor ["public"] ["id"], orderConstructor ["public"] ["total"]] :=
    .keep _ (.drop (by decide) (.keep _ (.keep _ .nil)))
  have hmethods : Thinned order.methods [plainMethod "Ship"] :=
    .drop (by decide) (.keep _ .nil)
  obtain ⟨hchosen, -, hthinned⟩ := widest_constructor_chosen order
  refine ⟨⟨htestable, (hchosen htestable _).mpr ?_⟩, hprivate,
    (widest_constructor_chosen _).2.1 hprivate, _, _, hconstructors, hmethods, rfl, rfl,
    ((hthinned _ _ hconstructors hmethods).2 {}).1⟩
  exact ⟨order.constructors.take 2, [orderConstructor ["public"] ["total"]], rfl, by decide,
    by decide, by decide⟩

end Suite

end TestScaffold
