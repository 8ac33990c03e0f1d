import Mathlib.Data.List.Pairwise
import TestScaffold.Proofs.Model.Grouping
import TestScaffold.Suite.TestClass
/-!
# The names of the tests in a class

The overloads of a method are tested under the name of the method and under that name
with a number behind it. The names of all the tests of a class are given in closed form
(`map_name_testsOf`), and with it the question when they differ from one another.

The overloads of one method never share a name. Overloads of two methods may: the second
overload of `Run` is tested as `Run2`, whether there is a method of that name or not. The
names differ exactly when no two methods meet in this way (`names_nodup_iff`). For that,
one name has to be the other one with digits behind it (`exists_digits_of_overloadName`).
-/

namespace TestScaffold.Suite

/-- The name that an overload is tested under, when `number` overloads of the same method
stand in front of it. -/
def overloadName (name : String) (number : Nat) : String :=
  if number = 0 then name else name ++ toString (number + 1)

/-- The names of the testable methods in the order in which they first appear. -/
def testedNames (c : Class) : List String :=
  ((c.methods.filter isTestable).map Method.name).eraseDups

/-- The names that the testable methods of one name are tested under. -/
def overloadNames (c : Class) (name : String) : List String :=
  (List.range ((c.methods.filter isTestable).countP (·.name = name))).map (overloadName name)

/-! ## Names in closed form -/

/-- The tests of some overloads test them in order and bear consecutive numbers. -/
theorem map_overloadTests (c : Class) (name : String) :
    ∀ (number : Nat) {methods : List Method}, (∀ m ∈ methods, m.name = name) →
      (overloadTests c number methods).map (fun t => (t.method, t.name))
        = methods.mapIdx fun i m => (m, overloadName name (number + i))
  | _, [], _ => rfl
  | number, m :: methods, h => by
    obtain ⟨hm, hmethods⟩ := List.forall_mem_cons.mp h
    have hname : TestMethod.name ⟨c, m, if number = 0 then none
        else some (m.name ++ toString (number + 1))⟩ = overloadName name number := by
      rw [overloadName, TestMethod.name, hm]
      split <;> rfl
    have hnumber : ∀ i, number + 1 + i = number + (i + 1) := by omega
    rw [overloadTests, List.map_cons, map_overloadTests c name (number + 1) hmethods, hname,
      List.mapIdx_cons]
    simp only [hnumber, Nat.add_zero]

/-- **The tests of a class** with the methods they test, method by method. -/
theorem map_testsOf (c : Class) :
    (testsOf c).map (fun t => (t.method, t.name))
      = (testedNames c).flatMap fun name =>
          ((c.methods.filter isTestable).filter (·.name = name)).mapIdx
            fun i m => (m, overloadName name i) := by
  rw [testsOf, groupByKey_eq, List.flatMap_map, List.map_flatMap]
  refine List.flatMap_congr fun name _ => ?_
  simpa only [Nat.zero_add] using map_overloadTests c name 0 fun m hm =>
    of_decide_eq_true (List.mem_filter.mp hm).2

/-- **The names of the tests of a class**: those of the overloads of each method, method
by method. -/
theorem map_name_testsOf (c : Class) :
    (testsOf c).map TestMethod.name = (testedNames c).flatMap (overloadNames c) := by
  have hnames : ∀ (methods : List Method) (name : String),
      (methods.mapIdx fun i m => (m, overloadName name i)).map Prod.snd
        = (List.range methods.length).map (overloadName name) := fun methods name =>
    List.ext_getElem (by simp) (by simp)
  have h := congrArg (List.map Prod.snd) (map_testsOf c)
  rw [List.map_map, List.map_flatMap] at h
  simp only [hnames, ← List.countP_eq_length_filter] at h
  exact h

/-! ## When names meet -/

/-- A method has no two overloads of one name. -/
theorem overloadName_injective (name : String) : Function.Injective (overloadName name) := by
  have hplain : ∀ n, name ≠ name ++ toString (n + 1) := fun n h => by
    have hnil := List.append_right_eq_self.mp
      ((String.toList_append ..).symm.trans (congrArg String.toList h).symm)
    exact Nat.toDigits_ne_nil (Nat.toList_repr.symm.trans hnil)
  intro i j h
  unfold overloadName at h
  split at h <;> split at h
  · omega
  · exact absurd h (hplain j)
  · exact absurd h.symm (hplain i)
  · have hdigits := List.append_cancel_left
      ((String.toList_append ..).symm.trans
        ((congrArg String.toList h).trans (String.toList_append ..)))
    have hnumber : i + 1 = j + 1 := by
      rw [← Nat.ofDigitChars_ten_toDigits (n := i + 1), ← Nat.toList_repr]
      exact (congrArg (Nat.ofDigitChars 10 · 0) (hdigits.trans Nat.toList_repr)).trans
        Nat.ofDigitChars_ten_toDigits
    omega

theorem nodup_overloadNames (c : Class) (name : String) : (overloadNames c name).Nodup :=
  List.nodup_range.map (overloadName_injective name)

/-- An overload is tested under the name of its method with digits behind it, or none. -/
theorem exists_digits (name : String) (number : Nat) :
    ∃ digits : List Char, (∀ d ∈ digits, d.isDigit = true)
      ∧ (overloadName name number).toList = name.toList ++ digits := by
  unfold overloadName
  split
  · exact ⟨[], by simp, by simp⟩
  · exact ⟨Nat.toDigits 10 (number + 1),
      fun d hd => Nat.isDigit_of_mem_toDigits (by decide) (by decide) hd,
      (String.toList_append ..).trans (congrArg _ Nat.toList_repr)⟩

/-- **Two methods that share the name of a test** have names of which one is the other
one with digits behind it. -/
theorem exists_digits_of_overloadName {name other : String} (hne : name ≠ other) {i j : Nat}
    (h : overloadName name i = overloadName other j) :
    ∃ digits : List Char, digits ≠ [] ∧ (∀ d ∈ digits, d.isDigit = true)
      ∧ (other.toList = name.toList ++ digits ∨ name.toList = other.toList ++ digits) := by
  obtain ⟨a, ha, hname⟩ := exists_digits name i
  obtain ⟨b, hb, hother⟩ := exists_digits other j
  rw [h, hother] at hname
  -- of two beginnings of one text the shorter one begins the longer one
  rcases List.append_eq_append_iff.mp hname with ⟨s, hs, hbs⟩ | ⟨s, hs, has⟩
  · exact ⟨s, fun hnil => hne (String.toList_inj.mp (by rw [hs, hnil, List.append_nil])),
      fun d hd => hb d (hbs ▸ List.mem_append_left _ hd), .inr hs⟩
  · exact ⟨s, fun hnil => hne (String.toList_inj.mp (by rw [hs, hnil, List.append_nil])),
      fun d hd => ha d (has ▸ List.mem_append_left _ hd), .inl hs⟩

/-- The tests have names of their own exactly when no two methods share one. -/
theorem nodup_flatMap_overloadNames (c : Class) :
    ((testedNames c).flatMap (overloadNames c)).Nodup ↔
      ∀ name ∈ testedNames c, ∀ other ∈ testedNames c, name ≠ other →
        (overloadNames c name).Disjoint (overloadNames c other) := by
  rw [List.nodup_flatMap]
  have : Std.Symm (Function.onFun List.Disjoint (overloadNames c)) := ⟨fun _ _ h _ ha hb => h hb ha⟩
  constructor
  · rintro ⟨-, h⟩ name hname other hother hne
    exact h.forall hname hother hne
  · exact fun h => ⟨fun name _ => nodup_overloadNames c name,
      (nodup_eraseDups _).pairwise_of_forall_ne h⟩

/-- **When the tests of a class have names of their own**: exactly when no overload of one
method is tested under a name that an overload of another method has. In particular they
do when no testable method is named like another one with digits behind it. -/
theorem names_nodup_iff (c : Class) :
    (((TestClass.ofClass c).tests.map TestMethod.name).Nodup ↔
      ∀ name ∈ testedNames c, ∀ other ∈ testedNames c, name ≠ other →
        (overloadNames c name).Disjoint (overloadNames c other))
    ∧ ((∀ name ∈ testedNames c, ∀ other ∈ testedNames c, ∀ digits : List Char,
          digits ≠ [] → (∀ d ∈ digits, d.isDigit = true) →
          other.toList ≠ name.toList ++ digits) →
        ((TestClass.ofClass c).tests.map TestMethod.name).Nodup) := by
  have hnames : (TestClass.ofClass c).tests.map TestMethod.name
      = (testedNames c).flatMap (overloadNames c) := map_name_testsOf c
  rw [hnames]
  refine ⟨nodup_flatMap_overloadNames c, fun hdigits => ?_⟩
  refine (nodup_flatMap_overloadNames c).mpr fun name hname other hother hne => ?_
  intro test htest htest'
  obtain ⟨i, -, rfl⟩ := List.mem_map.mp htest
  obtain ⟨j, -, heq⟩ := List.mem_map.mp htest'
  obtain ⟨digits, hnil, hall, h | h⟩ := exists_digits_of_overloadName hne heq.symm
  · exact hdigits name hname other hother digits hnil hall h
  · exact hdigits other hother name hname digits hnil hall h

/-- A public method without parameters and without a result. -/
def plainMethod (name : String) : Method :=
  { name, keywords := some ["public"], returnType := .named "void" }

/-- A class with two overloads of `Run` and a method `Run2`. -/
def runner : Class :=
  { name := "Runner", keywords := some ["public"]
    methods := [
      { plainMethod "Run" with parameters := [{ name := "times", type := .named "int" }] },
      plainMethod "Run", plainMethod "Run2"] }

/-- **Two tests of a class may have one name**, and then the test class declares two
methods of that name. -/
theorem two_tests_named_alike :
    ¬((TestClass.ofClass runner).tests.map TestMethod.name).Nodup
    ∧ (TestClass.ofClass runner).tests.map (fun t => (t.plan {}).header)
      = ["public void Run()".toList, "public void Run2()".toList,
        "public void Run2()".toList] := by
  have hnames : (TestClass.ofClass runner).tests.map TestMethod.name
      = ["Run", "Run2", "Run2"] := by decide
  exact ⟨by rw [hnames]; decide, by decide⟩

end TestScaffold.Suite
