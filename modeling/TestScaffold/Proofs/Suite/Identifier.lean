import TestScaffold.Proofs.Suite.PrimaryConstructor
import TestScaffold.Proofs.Suite.TestNames
import TestScaffold.Proofs.TypeExpr.Identifier
/-!
# Which names of a test class are identifiers

The names in a test class are put together from names of the class under test: with
`Tests` or a number behind them, with the configured prefix or the word for a role in
front. What is put behind an identifier never does any harm. What is put in front does
when the name starts with `@`, which may only stand at the very start of an identifier
(`isIdentifier_append_iff`).

A class whose own names are identifiers therefore has test names that are identifiers, but
the longer name of its test class is one only when the prefix is an identifier itself, and
the locals of a test are only when no parameter is written with `@`
(`names_identifiers_iff`). The settings are no help: the prefix is checked for the
characters of an identifier and not for the one that stands first (`names_not_identifiers`).
-/

namespace TestScaffold.Suite

open Text

/-! ## Identifiers -/

/-- **An alphabet of identifiers**: what counts as a letter and what as a digit. It settles
the characters of ASCII and leaves open which of the alphanumeric ones beyond it count. -/
structure Alphabet where
  /-- The letters. -/
  isLetter : Char → Bool
  /-- The digits. -/
  isDigit : Char → Bool
  /-- The letters of ASCII are letters. -/
  isLetter_of_isAlpha : ∀ c : Char, c.isAlpha = true → isLetter c = true
  /-- The digits of ASCII are digits. -/
  isDigit_of_isDigit : ∀ c : Char, c.isDigit = true → isDigit c = true
  /-- No digit is a letter. -/
  isLetter_eq_false : ∀ c, isDigit c = true → isLetter c = false
  /-- Letters and digits are alphanumeric. -/
  isAlphanumeric_of : ∀ c, (isLetter c || isDigit c) = true → isAlphanumeric c = true

namespace Alphabet

theorem isDigit_iff {c : Char} : c.isDigit = true ↔ 48 ≤ c.toNat ∧ c.toNat ≤ 57 := by
  simp [Char.isDigit, UInt32.le_iff_toNat_le]

theorem isAlphanumeric_of_isAlphanum {c : Char} (h : c.isAlphanum = true) :
    isAlphanumeric c = true := by
  have htable : ∀ n < 128, (Char.ofNat n).isAlphanum = true →
      isAlphanumeric (Char.ofNat n) = true := by decide +kernel
  have hascii : c.toNat < 128 := by
    rcases Bool.or_eq_true_iff.mp h with halpha | hdigit
    · have := isAlpha_iff.mp halpha
      omega
    · have := isDigit_iff.mp hdigit
      omega
  have hc : Char.ofNat c.toNat = c := Char.ofNat_toNat c
  exact hc ▸ htable c.toNat hascii (hc.symm ▸ h)

/-- The letters and digits of ASCII alone. -/
def ascii : Alphabet where
  isLetter := Char.isAlpha
  isDigit := Char.isDigit
  isLetter_of_isAlpha _ h := h
  isDigit_of_isDigit _ h := h
  isLetter_eq_false c h := by
    have hdigit := isDigit_iff.mp h
    rw [← Bool.not_eq_true, isAlpha_iff]
    omega
  isAlphanumeric_of _ h := isAlphanumeric_of_isAlphanum h

variable (A : Alphabet)

/-- What an identifier may start with. -/
def isFirst (c : Char) : Bool :=
  A.isLetter c || c == '_'

/-- What the other characters of an identifier may be. -/
def isRest (c : Char) : Bool :=
  A.isLetter c || A.isDigit c || c == '_'

/-- An identifier that is written without `@`. -/
def IsPlain : List Char → Prop
  | [] => False
  | c :: s => A.isFirst c = true ∧ ∀ d ∈ s, A.isRest d = true

/-- **An identifier**: a letter or an underscore with letters, digits and underscores
behind it, and `@` in front of it or not. -/
def IsIdentifier (s : List Char) : Prop :=
  A.IsPlain s ∨ ∃ plain, s = '@' :: plain ∧ A.IsPlain plain

instance : DecidablePred A.IsPlain
  | [] => inferInstanceAs (Decidable False)
  | _ :: _ => inferInstanceAs (Decidable (_ ∧ ∀ _ ∈ _, _))

instance : DecidablePred A.IsIdentifier
  | [] => isFalse (by rintro (h | ⟨_, h, -⟩) <;> simp [IsPlain] at h)
  | c :: s => decidable_of_iff (A.IsPlain (c :: s) ∨ (c = '@' ∧ A.IsPlain s)) (by
      simp only [IsIdentifier, List.cons.injEq]
      constructor
      · rintro (h | ⟨rfl, h⟩)
        · exact .inl h
        · exact .inr ⟨s, ⟨rfl, rfl⟩, h⟩
      · rintro (h | ⟨_, ⟨rfl, rfl⟩, h⟩)
        · exact .inl h
        · exact .inr ⟨rfl, h⟩)

/-! ## What stands in an identifier -/

section Parts

variable {A} {c : Char} {s front rest : List Char}

theorem isRest_of_isFirst (h : A.isFirst c = true) : A.isRest c = true := by
  simp only [isFirst, isRest, Bool.or_eq_true] at h ⊢
  exact h.imp_left .inl

/-- An identifier is made of word characters. -/
theorem isWordChar_of_isRest (h : A.isRest c = true) : isWordChar c = true := by
  rw [isRest, Bool.or_eq_true] at h
  rw [isWordChar, Bool.or_eq_true]
  exact h.imp_left (A.isAlphanumeric_of c)

theorem isRest_at : A.isRest '@' = false := by
  rw [← Bool.not_eq_true]
  intro h
  exact ne_of_isWordChar (isWordChar_of_isRest h) (show '@' ∈ plainMarks by decide) rfl

theorem IsPlain.ne_nil (h : A.IsPlain s) : s ≠ [] := by
  rintro rfl
  exact h

theorem IsPlain.isRest (h : A.IsPlain s) : ∀ d ∈ s, A.isRest d = true := by
  cases s with
  | nil => exact h.elim
  | cons c s => exact List.forall_mem_cons.mpr ⟨isRest_of_isFirst h.1, h.2⟩

theorem IsPlain.notMem_at (h : A.IsPlain s) : '@' ∉ s := by
  intro hmem
  have := h.isRest _ hmem
  rw [isRest_at] at this
  exact Bool.noConfusion this

/-- What is an identifier to ASCII is one to every alphabet. -/
theorem IsPlain.of_ascii (h : ascii.IsPlain s) : A.IsPlain s := by
  have hletter : ∀ {c : Char}, ascii.isLetter c = true → A.isLetter c = true :=
    A.isLetter_of_isAlpha _
  have hdigit : ∀ {c : Char}, ascii.isDigit c = true → A.isDigit c = true :=
    A.isDigit_of_isDigit _
  cases s with
  | nil => exact h
  | cons c s =>
    obtain ⟨hfirst, hrest⟩ := h
    refine ⟨?_, fun d hd => ?_⟩
    · simp only [isFirst, Bool.or_eq_true] at hfirst ⊢
      exact hfirst.imp_left hletter
    · have := hrest d hd
      simp only [Alphabet.isRest, Bool.or_eq_true] at this ⊢
      exact this.imp_left (Or.imp hletter hdigit)

/-- A text begins with a part of it that holds something. -/
theorem isPlain_append_iff (hne : front ≠ []) :
    A.IsPlain (front ++ rest) ↔ A.IsPlain front ∧ ∀ d ∈ rest, A.isRest d = true := by
  cases front with
  | nil => exact absurd rfl hne
  | cons c front =>
    rw [List.cons_append, IsPlain, IsPlain, List.forall_mem_append, and_assoc]

/-- **What is put behind an identifier**, letters, digits and underscores, makes it no
worse. -/
theorem IsIdentifier.append (h : A.IsIdentifier s) (hrest : ∀ d ∈ rest, A.isRest d = true) :
    A.IsIdentifier (s ++ rest) := by
  rcases h with h | ⟨plain, rfl, h⟩
  · exact .inl ((isPlain_append_iff h.ne_nil).mpr ⟨h, hrest⟩)
  · exact .inr ⟨plain ++ rest, rfl, (isPlain_append_iff h.ne_nil).mpr ⟨h, hrest⟩⟩

/-- An identifier may be the rest of another one unless it is written with `@`. -/
theorem IsIdentifier.isRest_iff (h : A.IsIdentifier s) :
    (∀ d ∈ s, A.isRest d = true) ↔ '@' ∉ s := by
  rcases h with h | ⟨plain, rfl, h⟩
  · exact iff_of_true h.isRest h.notMem_at
  · refine iff_of_false (fun hall => ?_) (fun hnot => hnot List.mem_cons_self)
    have := hall _ List.mem_cons_self
    rw [isRest_at] at this
    exact Bool.noConfusion this

/-- **What is put in front of an identifier**, and holds no `@`, has to be an identifier
itself, and the identifier behind it must not be written with `@`. -/
theorem isIdentifier_append_iff (hne : front ≠ []) (hat : '@' ∉ front)
    (h : A.IsIdentifier s) : A.IsIdentifier (front ++ s) ↔ A.IsPlain front ∧ '@' ∉ s := by
  rw [← h.isRest_iff, ← isPlain_append_iff hne]
  refine ⟨fun hall => ?_, .inl⟩
  rcases hall with hplain | ⟨plain, heq, -⟩
  · exact hplain
  · cases front with
    | nil => exact absurd rfl hne
    | cons c front =>
      obtain ⟨rfl, -⟩ := List.cons.inj heq
      exact absurd List.mem_cons_self hat

end Parts

end Alphabet

/-! ## The names in a test class -/

/-- **The names that a class is written with are identifiers**: its own, those of its
methods, and those of their parameters and the parameters of its constructors. -/
structure Alphabet.Names (A : Alphabet) (c : Class) : Prop where
  /-- The name of the class. -/
  name : A.IsIdentifier c.name.toList
  /-- The names of the methods. -/
  methods : ∀ m ∈ c.methods, A.IsIdentifier m.name.toList
  /-- The names of the parameters of the methods. -/
  parameters : ∀ m ∈ c.methods, ∀ p ∈ m.parameters, A.IsIdentifier p.name.toList
  /-- The names of the parameters of the constructors. -/
  constructors : ∀ k ∈ c.constructors, ∀ p ∈ k.parameters, A.IsIdentifier p.name.toList

/-- The locals that a body declares, in order. -/
def Body.locals (b : Body) : List (List Char) :=
  b.statements.filterMap Statement.declared?

/-- The parameters whose values a test declares: those of its method and those of the
constructor that makes the object under test. -/
def TestMethod.parameters (t : TestMethod) : List Parameter :=
  t.method.parameters ++ (primaryConstructor t.subject).parameters

theorem filterMap_declared_ofParameter (role : Role) (ps : List Parameter) :
    (ps.map (Statement.ofParameter role)).filterMap Statement.declared?
      = ps.map (localName role) := by
  rw [List.filterMap_map, ← List.filterMap_eq_map]
  rfl

theorem map_localName_adaptParameters (role : Role) (policy : TypePolicy)
    (ps : List Parameter) :
    (TestMethod.adaptParameters policy ps).map (localName role) = ps.map (localName role) := by
  rw [TestMethod.adaptParameters, List.map_map]
  rfl

/-- **The locals of a test**: one for every parameter, one for the object under test, and
two for the results if there are any. -/
theorem locals_body (t : TestMethod) (settings : GenerateSettings) :
    (t.plan settings).body.locals
      = (t.plan settings).resultType.toList.map (fun _ => "expected".toList)
        ++ (t.method.parameters.map (localName .method)
        ++ ((primaryConstructor t.subject).parameters.map (localName .target)
        ++ "target".toList
          :: (t.plan settings).resultType.toList.map (fun _ => "actual".toList))) := by
  have hadapt := fun role => map_localName_adaptParameters role
    (TypePolicy.ofSettings settings t.genericParameters)
  rw [← hadapt .method, ← hadapt .target, ← filterMap_declared_ofParameter,
    ← filterMap_declared_ofParameter]
  unfold Body.locals Body.statements TestMethod.Plan.body
  cases (t.plan settings).resultType with
  | none => simp [Statement.declared?, TestMethod.plan]
  | some type => simp [Statement.declared?, TestMethod.plan]

/-- The tests of some overloads test these, under their names or with a number behind. -/
theorem of_mem_overloadTests {c : Class} {t : TestMethod} {number : Nat} {methods : List Method}
    (h : t ∈ overloadTests c number methods) :
    t.subject = c ∧ t.method ∈ methods ∧ ∃ n, t.name = overloadName t.method.name n := by
  induction methods generalizing number with
  | nil => exact absurd h List.not_mem_nil
  | cons m methods ih =>
    rw [overloadTests] at h
    rcases List.mem_cons.mp h with rfl | h
    · refine ⟨rfl, List.mem_cons_self, number, ?_⟩
      rw [TestMethod.name, overloadName]
      split <;> rfl
    · obtain ⟨hsubject, hmethod, hname⟩ := ih h
      exact ⟨hsubject, List.mem_cons_of_mem m hmethod, hname⟩

/-- The tests of a class test methods of it. -/
theorem of_mem_testsOf {c : Class} {t : TestMethod} (h : t ∈ testsOf c) :
    t.subject = c ∧ t.method ∈ c.methods ∧ ∃ n, t.name = overloadName t.method.name n := by
  rw [testsOf, groupByKey_eq, List.flatMap_map] at h
  obtain ⟨_, -, ht⟩ := List.mem_flatMap.mp h
  obtain ⟨hsubject, hmethod, hname⟩ := of_mem_overloadTests ht
  exact ⟨hsubject, (List.mem_filter.mp (List.mem_filter.mp hmethod).1).1, hname⟩

/-! ## Which of them are identifiers -/

section Names

variable {A : Alphabet} {c : Class} {settings : GenerateSettings}

/-- Settings that are valid have a prefix of word characters. -/
theorem prefix_of_validate (h : settings.validate = .ok ()) :
    settings.testClassNamePrefixIfFileExists.toList ≠ []
      ∧ '@' ∉ settings.testClassNamePrefixIfFileExists.toList := by
  have hnone : settings.invalid? = none := by
    unfold GenerateSettings.validate at h
    split at h
    · exact absurd h (by simp)
    · next hnone => exact hnone
  have hallowed : ¬(settings.testClassNamePrefixIfFileExists.toList.isEmpty
      || !settings.testClassNamePrefixIfFileExists.toList.all GenerateSettings.isPrefixChar)
        = true := by
    intro hbad
    simp only [GenerateSettings.invalid?, if_pos hbad] at hnone
    split_ifs at hnone
  simp only [Bool.or_eq_true, List.isEmpty_iff, Bool.not_eq_true', not_or, Bool.not_eq_false,
    List.all_eq_true] at hallowed
  refine ⟨hallowed.1, fun hmem => ?_⟩
  -- what the settings allow are the word characters
  have hword : isWordChar '@' = true := hallowed.2 '@' hmem
  exact ne_of_isWordChar hword (show '@' ∈ plainMarks by decide) rfl

/-- A number behind a name keeps it an identifier. -/
theorem isIdentifier_overloadName {name : String} (h : A.IsIdentifier name.toList) (n : Nat) :
    A.IsIdentifier (overloadName name n).toList := by
  obtain ⟨digits, hdigits, heq⟩ := exists_digits name n
  rw [heq]
  refine h.append fun d hd => ?_
  rw [Alphabet.isRest, A.isDigit_of_isDigit d (hdigits d hd), Bool.or_true, Bool.true_or]

theorem isIdentifier_localName_iff (role : Role) {p : Parameter}
    (h : A.IsIdentifier p.name.toList) :
    A.IsIdentifier (localName role p) ↔ '@' ∉ p.name.toList := by
  have hplain : A.IsPlain (role.text.toList ++ ['_']) := by
    cases role <;> exact .of_ascii (by decide)
  have hlocal : localName role p = (role.text.toList ++ ['_']) ++ p.name.toList := by
    rw [List.append_assoc]
    rfl
  rw [hlocal, Alphabet.isIdentifier_append_iff hplain.ne_nil hplain.notMem_at h]
  exact and_iff_right hplain

/-- The parameters whose values a test declares have identifiers for names. -/
theorem Alphabet.Names.of_mem_parameters (h : A.Names c) {t : TestMethod} (ht : t ∈ testsOf c)
    {p : Parameter} (hp : p ∈ t.parameters) : A.IsIdentifier p.name.toList := by
  obtain ⟨rfl, hmethod, -⟩ := of_mem_testsOf ht
  rcases List.mem_append.mp hp with hp | hp
  · exact h.parameters _ hmethod p hp
  · rcases primaryConstructor_mem t.subject with hmem | himplicit
    · exact h.constructors _ hmem p hp
    · rw [himplicit] at hp
      exact absurd hp List.not_mem_nil

/-- **The locals of a test are identifiers** exactly when no parameter is written with
`@`. -/
theorem forall_locals_iff (h : A.Names c) {t : TestMethod} (ht : t ∈ testsOf c)
    (settings : GenerateSettings) :
    (∀ name ∈ (t.plan settings).body.locals, A.IsIdentifier name) ↔
      ∀ p ∈ t.parameters, '@' ∉ p.name.toList := by
  have hfixed : A.IsIdentifier "target".toList ∧ A.IsIdentifier "expected".toList
      ∧ A.IsIdentifier "actual".toList :=
    ⟨.inl (.of_ascii (by decide)), .inl (.of_ascii (by decide)), .inl (.of_ascii (by decide))⟩
  have hlocals : ∀ role, ∀ ps : List Parameter, (∀ p ∈ ps, p ∈ t.parameters) →
      ((∀ name ∈ ps.map (localName role), A.IsIdentifier name) ↔
        ∀ p ∈ ps, '@' ∉ p.name.toList) := by
    intro role ps hps
    rw [List.forall_mem_map]
    exact forall₂_congr fun p hp =>
      isIdentifier_localName_iff role (h.of_mem_parameters ht (hps p hp))
  have hresult : ∀ word : List Char, A.IsIdentifier word →
      ∀ name ∈ (t.plan settings).resultType.toList.map (fun _ => word), A.IsIdentifier name := by
    rintro word hword name hname
    obtain ⟨_, -, rfl⟩ := List.mem_map.mp hname
    exact hword
  rw [locals_body, List.forall_mem_append, List.forall_mem_append, List.forall_mem_append,
    List.forall_mem_cons, hlocals _ _ fun p hp => List.mem_append_left _ hp,
    hlocals _ _ fun p hp => List.mem_append_right _ hp, TestMethod.parameters,
    List.forall_mem_append, and_iff_right (hresult _ hfixed.2.1), and_iff_right hfixed.1,
    and_iff_left (hresult _ hfixed.2.2)]

/-- **Which names of a test class are identifiers.** Of a class whose own names are
identifiers the name of the test class and those of its tests are. Under settings that are
valid the name with the configured prefix is one exactly when the prefix itself is and the
class is not written with `@`, and the locals of a test are exactly when none of the
parameters they stand for is. -/
theorem names_identifiers_iff (hvalid : settings.validate = .ok ()) (h : A.Names c) :
    A.IsIdentifier (TestClass.ofClass c).name.toList
      ∧ (A.IsIdentifier ((TestClass.ofClass c).withPrefix
            settings.testClassNamePrefixIfFileExists).name.toList ↔
          A.IsPlain settings.testClassNamePrefixIfFileExists.toList ∧ '@' ∉ c.name.toList)
      ∧ ∀ t ∈ (TestClass.ofClass c).tests, A.IsIdentifier t.name.toList
        ∧ ((∀ name ∈ (t.plan settings).body.locals, A.IsIdentifier name) ↔
          ∀ p ∈ t.parameters, '@' ∉ p.name.toList) := by
  have hrest : A.IsPlain "Tests".toList := .of_ascii (by decide)
  have hname : (TestClass.ofClass c).name.toList = c.name.toList ++ "Tests".toList :=
    String.toList_append
  have htests : A.IsIdentifier (TestClass.ofClass c).name.toList :=
    hname ▸ h.name.append hrest.isRest
  refine ⟨htests, ?_, fun t ht => ⟨?_, forall_locals_iff h ht settings⟩⟩
  · obtain ⟨hne, hat⟩ := prefix_of_validate hvalid
    rw [TestClass.withPrefix, String.toList_append, Alphabet.isIdentifier_append_iff hne hat htests,
      hname, List.mem_append, not_or, and_iff_left hrest.notMem_at]
  · obtain ⟨-, hmethod, n, hn⟩ := of_mem_testsOf ht
    exact hn ▸ isIdentifier_overloadName (h.methods _ hmethod) n

end Names

/-- A class with verbatim names: `@event` with a method `Run(int @in)`. -/
def eventClass : Class :=
  { name := "@event", keywords := some ["public"]
    methods := [{ plainMethod "Run" with
      parameters := [{ name := "@in", type := .named "int" }] }] }

/-- Settings with a digit for a prefix. -/
def digitPrefix : GenerateSettings :=
  { testClassNamePrefixIfFileExists := "1" }

theorem names_runner : Alphabet.ascii.Names runner where
  name := by decide
  methods := by decide
  parameters := by decide
  constructors := by decide

theorem names_eventClass : Alphabet.ascii.Names eventClass where
  name := by decide
  methods := by decide
  parameters := by decide
  constructors := by decide

/-- The runner's names are identifiers, and so are all the names in its test class. -/
theorem names_identifiers_iff_runner :
    GenerateSettings.validate {} = .ok () ∧ Alphabet.ascii.Names runner
      ∧ Alphabet.ascii.IsIdentifier ((TestClass.ofClass runner).withPrefix "Ddt").name.toList
      ∧ ∀ t ∈ (TestClass.ofClass runner).tests, Alphabet.ascii.IsIdentifier t.name.toList
        ∧ ∀ name ∈ (t.plan {}).body.locals, Alphabet.ascii.IsIdentifier name := by
  have hvalid : GenerateSettings.validate {} = .ok () := by decide +kernel
  obtain ⟨-, hlonger, htests⟩ := names_identifiers_iff hvalid names_runner
  refine ⟨hvalid, names_runner, hlonger.mpr ⟨by decide, by decide⟩, fun t ht => ?_⟩
  obtain ⟨hname, hlocals⟩ := htests t ht
  refine ⟨hname, hlocals.mpr ?_⟩
  revert t
  decide

/-- **A prefix that starts with a digit and names with `@` break the names of a test
class.** Both the default settings and those with the prefix `1` are valid; neither
`1RunnerTests` nor `Ddt@eventTests` is an identifier, and neither is the local
`method_@in`. -/
theorem names_not_identifiers :
    GenerateSettings.validate {} = .ok () ∧ digitPrefix.validate = .ok ()
      ∧ Alphabet.ascii.Names runner ∧ Alphabet.ascii.Names eventClass
      ∧ ¬Alphabet.ascii.IsIdentifier ((TestClass.ofClass runner).withPrefix
          digitPrefix.testClassNamePrefixIfFileExists).name.toList
      ∧ ¬Alphabet.ascii.IsIdentifier ((TestClass.ofClass eventClass).withPrefix "Ddt").name.toList
      ∧ ∃ t ∈ (TestClass.ofClass eventClass).tests,
        ∃ name ∈ (t.plan {}).body.locals, ¬Alphabet.ascii.IsIdentifier name := by
  exact ⟨by decide +kernel, by decide +kernel, names_runner, names_eventClass, by decide,
    by decide, by decide⟩

end TestScaffold.Suite
