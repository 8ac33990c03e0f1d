import TestScaffold.Proofs.Suite.PrimaryConstructor
/-!
# Generic parameters under other names

With erasure on, a test shows `object` wherever a generic parameter stands, so it should
not matter what the parameters are called. `Respelling` says which other names are meant:
names that generic parameters may have, and none that stands for something else in the
types of the test. `TestMethod.chars_rename` is the statement about the texts.

Three things have to come out alike. The parameters found in the renamed types are the
renamed parameters (`mem_genericParameters_rename`), because both names of a parameter
look like one. Erasure then meets the same places (`erase_rename`), and what follows it,
the nullability policy and the choice between a plain result and a task, only sees the
types behind the erasure.
-/

namespace TestScaffold

/-! ## Renaming -/

namespace TypeExpr

mutual
/-- A type with other names at all of its nodes. -/
def rename (r : String → String) : TypeExpr → TypeExpr
  | ⟨name, arguments, ranks, nullable, components⟩ =>
    ⟨r name, renameAll r arguments, ranks, nullable, renameAll r components⟩
/-- Some types with other names at all of their nodes. -/
def renameAll (r : String → String) : List TypeExpr → List TypeExpr
  | [] => []
  | t :: ts => rename r t :: renameAll r ts
end

mutual
/-- The names at the nodes of a type. -/
def names : TypeExpr → List String
  | ⟨name, arguments, _, _, components⟩ => name :: (namesOfAll arguments ++ namesOfAll components)
/-- The names at the nodes of some types. -/
def namesOfAll : List TypeExpr → List String
  | [] => []
  | t :: ts => names t ++ namesOfAll ts
end

theorem renameAll_eq_map (r : String → String) (ts : List TypeExpr) :
    renameAll r ts = ts.map (rename r) := by
  induction ts with
  | nil => simp [renameAll]
  | cons t ts ih => simp [renameAll, ih]

end TypeExpr

/-- A parameter whose type has other names. -/
def Parameter.rename (r : String → String) (p : Parameter) : Parameter :=
  { p with type := p.type.rename r }

/-- A constructor whose parameter types have other names. -/
def Constructor.rename (r : String → String) (c : Constructor) : Constructor :=
  { c with parameters := c.parameters.map (Parameter.rename r) }

/-- A class whose generics and constructor parameter types have other names. -/
def Class.rename (r : String → String) (c : Class) : Class :=
  { c with
    generics := c.generics.map (TypeExpr.rename r)
    constructors := c.constructors.map (Constructor.rename r) }

/-- A method whose generics, parameter types and return type have other names. -/
def Method.rename (r : String → String) (m : Method) : Method :=
  { m with
    generics := m.generics.map (TypeExpr.rename r)
    parameters := m.parameters.map (Parameter.rename r)
    returnType := m.returnType.rename r }

namespace Suite

/-- The test of the renamed method of the renamed class. -/
def TestMethod.rename (r : String → String) (t : TestMethod) : TestMethod :=
  { t with subject := t.subject.rename r, method := t.method.rename r }

/-- The types that a test is made of. -/
def TestMethod.types (t : TestMethod) : List TypeExpr :=
  t.subject.generics ++ t.subject.constructors.flatMap (fun c => c.parameters.map (·.type))
    ++ t.method.generics ++ t.method.parameters.map (·.type) ++ [t.method.returnType]

/-- **Other names for the generic parameters of a test.** Only the generic parameters are
renamed; the new names are such that generic parameters may have, and no new name occurs
in the types of the test unless it is that of a generic parameter too. -/
structure Respelling (t : TestMethod) (r : String → String) : Prop where
  /-- Other names stay. -/
  keeps : ∀ name ∉ t.genericParameters, r name = name
  /-- The new names look like generic parameters. -/
  generic : ∀ name ∈ t.genericParameters, isGenericParameterName (r name) = true
  /-- The new names stand for nothing else. -/
  fresh : ∀ name ∈ t.genericParameters, ∀ type ∈ t.types,
    r name ∈ type.names → r name ∈ t.genericParameters

/-! ## Collecting -/

theorem mem_insertName {name other : String} {names : List String} :
    other ∈ insertName name names ↔ other = name ∨ other ∈ names := by
  induction names with
  | nil => simp [insertName]
  | cons n names ih =>
    unfold insertName
    split
    · simp
    split
    · rename_i h
      simp [h]
    · rw [List.mem_cons, ih, List.mem_cons, or_left_comm]

theorem mem_sortNames {name : String} {names : List String} :
    name ∈ sortNames names ↔ name ∈ names := by
  induction names with
  | nil => simp [sortNames]
  | cons n names ih =>
    rw [sortNames, List.foldr_cons, mem_insertName, ← sortNames, ih, List.mem_cons]

mutual
/-- A type names generic parameters only under names that generic parameters may have. -/
theorem isGenericParameterName_of_mem {name : String} :
    ∀ {t : TypeExpr}, name ∈ parameterNames t → isGenericParameterName name = true
  | ⟨_, arguments, _, _, _⟩, h => by
    rw [parameterNames] at h
    split at h
    · split at h
      · rename_i hgeneric
        rwa [List.mem_singleton.mp h]
      · simp at h
    · exact isGenericParameterName_of_mem_all h
theorem isGenericParameterName_of_mem_all {name : String} :
    ∀ {ts : List TypeExpr}, name ∈ parameterNamesOfAll ts → isGenericParameterName name = true
  | [], h => by simp [parameterNamesOfAll] at h
  | _ :: _, h => by
    rw [parameterNamesOfAll, List.mem_append] at h
    exact h.elim isGenericParameterName_of_mem isGenericParameterName_of_mem_all
end

mutual
/-- A type under other names has its generic parameters under their other names. -/
theorem parameterNames_rename {r : String → String}
    (hr : ∀ name, isGenericParameterName (r name) = isGenericParameterName name) :
    ∀ t : TypeExpr, parameterNames (t.rename r) = (parameterNames t).map r
  | ⟨name, [], _, _, _⟩ => by
    rw [TypeExpr.rename, parameterNames, parameterNames, TypeExpr.renameAll, hr name]
    by_cases h : isGenericParameterName name = true <;> simp [h]
  | ⟨_, _ :: _, _, _, _⟩ => by
    rw [TypeExpr.rename, parameterNames, parameterNames, parameterNamesOfAll_renameAll hr]
    simp [TypeExpr.renameAll]
theorem parameterNamesOfAll_renameAll {r : String → String}
    (hr : ∀ name, isGenericParameterName (r name) = isGenericParameterName name) :
    ∀ ts : List TypeExpr,
      parameterNamesOfAll (TypeExpr.renameAll r ts) = (parameterNamesOfAll ts).map r
  | [] => by simp [TypeExpr.renameAll, parameterNamesOfAll]
  | t :: ts => by
    rw [TypeExpr.renameAll, parameterNamesOfAll, parameterNamesOfAll, List.map_append,
      parameterNames_rename hr t, parameterNamesOfAll_renameAll hr ts]
end

/-- **The generic parameters of a test under other names** are its generic parameters
under their other names. -/
theorem mem_genericParameters_rename {t : TestMethod} {r : String → String}
    (hr : ∀ name, isGenericParameterName (r name) = isGenericParameterName name)
    {name : String} :
    name ∈ (t.rename r).genericParameters ↔ ∃ g ∈ t.genericParameters, r g = name := by
  have hgenerics : (t.rename r).subject.generics ++ (t.rename r).method.generics
      = TypeExpr.renameAll r (t.subject.generics ++ t.method.generics) := by
    rw [TypeExpr.renameAll_eq_map, List.map_append]
    rfl
  simp only [TestMethod.genericParameters, collectGenericParameters, mem_sortNames, hgenerics,
    parameterNamesOfAll_renameAll hr, List.mem_map]

/-! ## Adapting -/

namespace TypePolicy

mutual
/-- **Erasure behind a renaming** comes to the same when each name does. -/
theorem erase_rename {p q : TypePolicy} {r : String → String} :
    ∀ t : TypeExpr, (∀ name ∈ t.names, q.eraseName (r name) = p.eraseName name) →
      q.erase (t.rename r) = p.erase t
  | ⟨name, arguments, ranks, nullable, components⟩, h => by
    rw [TypeExpr.names, List.forall_mem_cons, List.forall_mem_append] at h
    rw [TypeExpr.rename, erase, erase, h.1, eraseAll_renameAll arguments h.2.1,
      eraseAll_renameAll components h.2.2]
theorem eraseAll_renameAll {p q : TypePolicy} {r : String → String} :
    ∀ ts : List TypeExpr,
      (∀ name ∈ TypeExpr.namesOfAll ts, q.eraseName (r name) = p.eraseName name) →
      q.eraseAll (TypeExpr.renameAll r ts) = p.eraseAll ts
  | [], _ => by rw [TypeExpr.renameAll, eraseAll, eraseAll]
  | t :: ts, h => by
    rw [TypeExpr.namesOfAll, List.forall_mem_append] at h
    rw [TypeExpr.renameAll, eraseAll, eraseAll, erase_rename t h.1, eraseAll_renameAll ts h.2]
end

end TypePolicy

variable {t : TestMethod} {r : String → String} {settings : GenerateSettings}

/-- Both names of a name look like a generic parameter, or neither does. -/
theorem Respelling.isGenericParameterName_eq (h : Respelling t r) (name : String) :
    isGenericParameterName (r name) = isGenericParameterName name := by
  by_cases hmem : name ∈ t.genericParameters
  · rw [h.generic name hmem, isGenericParameterName_of_mem_all (mem_sortNames.mp hmem)]
  · rw [h.keeps name hmem]

/-- A name in the types of a test is a generic parameter exactly when its new name is one
behind the renaming. -/
theorem Respelling.mem_genericParameters_iff (h : Respelling t r) {type : TypeExpr}
    (htype : type ∈ t.types) {name : String} (hname : name ∈ type.names) :
    r name ∈ (t.rename r).genericParameters ↔ name ∈ t.genericParameters := by
  rw [mem_genericParameters_rename h.isGenericParameterName_eq]
  constructor
  · intro ⟨g, hg, heq⟩
    refine Decidable.byContradiction fun hnot => ?_
    rw [h.keeps name hnot] at heq
    exact hnot (heq ▸ h.fresh g hg type htype (heq ▸ hname))
  · exact fun hmem => ⟨name, hmem, rfl⟩

/-- **A type of a test is adapted to the same type** under other names of the generic
parameters. -/
theorem Respelling.adapt_rename (h : Respelling t r)
    (herase : settings.eraseGenericParameters = true) {type : TypeExpr} (htype : type ∈ t.types) :
    (TypePolicy.ofSettings settings (t.rename r).genericParameters).adapt (type.rename r)
      = (TypePolicy.ofSettings settings t.genericParameters).adapt type := by
  have hnames : ∀ name ∈ type.names,
      (TypePolicy.ofSettings settings (t.rename r).genericParameters).eraseName (r name)
        = (TypePolicy.ofSettings settings t.genericParameters).eraseName name := by
    intro name hname
    have hiff := h.mem_genericParameters_iff htype hname
    simp only [TypePolicy.eraseName, TypePolicy.ofSettings, herase, if_true,
      List.contains_iff_mem, hiff]
    split
    · rfl
    · rename_i hnot
      exact h.keeps name hnot
  unfold TypePolicy.adapt
  rw [TypePolicy.erase_rename type hnames]
  rfl

/-- Parameters whose types are those of a test are adapted to the same parameters. -/
theorem Respelling.adaptParameters_rename (h : Respelling t r)
    (herase : settings.eraseGenericParameters = true) {ps : List Parameter}
    (hps : ∀ p ∈ ps, p.type ∈ t.types) :
    TestMethod.adaptParameters (.ofSettings settings (t.rename r).genericParameters)
        (ps.map (Parameter.rename r))
      = TestMethod.adaptParameters (.ofSettings settings t.genericParameters) ps := by
  rw [TestMethod.adaptParameters, TestMethod.adaptParameters, List.map_map]
  refine List.map_congr_left fun p hp => ?_
  show { p with type := _ } = _
  rw [show (Parameter.rename r p).type = p.type.rename r from rfl,
    h.adapt_rename herase (hps p hp)]

/-- Types of a test are adapted to the same types. -/
theorem Respelling.adaptAll_rename (h : Respelling t r)
    (herase : settings.eraseGenericParameters = true) {ts : List TypeExpr}
    (hts : ∀ type ∈ ts, type ∈ t.types) :
    (TypePolicy.ofSettings settings (t.rename r).genericParameters).adaptAll
        (ts.map (TypeExpr.rename r))
      = (TypePolicy.ofSettings settings t.genericParameters).adaptAll ts := by
  rw [TypePolicy.adaptAll, TypePolicy.adaptAll, List.map_map]
  exact List.map_congr_left fun type htype => h.adapt_rename herase (hts type htype)

/-! ## Texts -/

/-- Constructors are chosen by their keywords and the number of their parameters. -/
theorem foldl_wider_rename (r : String → String) :
    ∀ (constructors : List Constructor) (best : Option Constructor),
      (constructors.map (Constructor.rename r)).foldl wider (best.map (Constructor.rename r))
        = (constructors.foldl wider best).map (Constructor.rename r)
  | [], _ => rfl
  | next :: constructors, best => by
    have hnext : wider (best.map (Constructor.rename r)) (next.rename r)
        = (wider best next).map (Constructor.rename r) := by
      cases best with
      | none => rfl
      | some b =>
        simp only [wider, Option.map_some, Constructor.rename, List.length_map]
        split <;> rfl
    rw [List.map_cons, List.foldl_cons, List.foldl_cons, hnext, foldl_wider_rename r]

/-- The widest constructor of a class under other names. -/
theorem primaryConstructor_rename (r : String → String) (c : Class) :
    primaryConstructor (c.rename r) = (primaryConstructor c).rename r := by
  have hfilter : (c.rename r).constructors.filter isTestable
      = (c.constructors.filter isTestable).map (Constructor.rename r) :=
    List.filter_map
  have hwidest := foldl_wider_rename r (c.constructors.filter isTestable) none
  rw [Option.map_none] at hwidest
  rw [primaryConstructor_eq, primaryConstructor_eq, hfilter, hwidest]
  cases (c.constructors.filter isTestable).foldl wider none with
  | none => rfl
  | some found => rfl

/-- **With erasure on, a test does not depend on how generic parameters are spelled.** -/
theorem TestMethod.chars_rename {t : TestMethod} {r : String → String}
    {settings : GenerateSettings} (herase : settings.eraseGenericParameters = true)
    (h : Respelling t r) : (t.rename r).chars settings = t.chars settings := by
  have hresult : t.method.returnType ∈ t.types := by simp [TestMethod.types]
  have hclass : ∀ type ∈ t.subject.generics, type ∈ t.types := by
    simp +contextual [TestMethod.types]
  have hmethod : ∀ type ∈ t.method.generics, type ∈ t.types := by
    simp +contextual [TestMethod.types]
  have hparameters : ∀ p ∈ t.method.parameters, p.type ∈ t.types := by
    simp +contextual [TestMethod.types, List.mem_map_of_mem]
  have hconstructor : ∀ p ∈ (primaryConstructor t.subject).parameters, p.type ∈ t.types := by
    intro p hp
    rcases primaryConstructor_mem t.subject with hmem | himplicit
    · simp only [TestMethod.types, List.mem_append, List.mem_flatMap]
      exact .inl (.inl (.inl (.inr ⟨_, hmem, List.mem_map_of_mem hp⟩)))
    · rw [himplicit] at hp
      simp [Constructor.implicit] at hp
  have hplan : (t.rename r).plan settings = t.plan settings := by
    unfold TestMethod.plan
    dsimp only
    rw [show (t.rename r).subject = t.subject.rename r from rfl, primaryConstructor_rename,
      show (t.rename r).method.returnType = t.method.returnType.rename r from rfl,
      h.adapt_rename herase hresult,
      show (t.subject.rename r).generics = t.subject.generics.map (TypeExpr.rename r) from rfl,
      h.adaptAll_rename herase hclass,
      show (t.rename r).method.generics = t.method.generics.map (TypeExpr.rename r) from rfl,
      h.adaptAll_rename herase hmethod,
      show (t.rename r).method.parameters = t.method.parameters.map (Parameter.rename r) from rfl,
      h.adaptParameters_rename herase hparameters,
      show ((primaryConstructor t.subject).rename r).parameters
        = (primaryConstructor t.subject).parameters.map (Parameter.rename r) from rfl,
      h.adaptParameters_rename herase hconstructor]
    rfl
  unfold TestMethod.chars
  rw [hplan]

/-- A class `Cache<TKey>` with a method `Task Load<T, Task>` of which the result is the
generic parameter `Task`. -/
def taskTest : TestMethod :=
  { subject := {
      name := "Cache"
      keywords := some ["public"]
      generics := [.named "TKey"]
      constructors := [{
        name := "Cache"
        keywords := some ["public"]
        parameters := [
          { name := "comparer", type := .generic "IComparer" [.named "TKey"] }] }] }
    method := {
      name := "Load"
      keywords := some ["public"]
      generics := [.named "T", .named "Task"]
      parameters := [
        { name := "items", type := .generic "List" [.tuple [.named "T", .named "int"]] }]
      returnType := .named "Task" } }

/-- The generic parameters of that test change places, and `TKey` turns into `K`. -/
def shuffle (name : String) : String :=
  if name = "T" then "Task" else if name = "Task" then "T"
  else if name = "TKey" then "K" else name

/-- The test shows `object` in the place of every generic parameter, and does not take the
result for a task. -/
theorem TestMethod.chars_rename_shuffle :
    (({ nullability := .add } : GenerateSettings).eraseGenericParameters = true
      ∧ Respelling taskTest shuffle)
    ∧ ((taskTest.rename shuffle).method.returnType = .named "T"
      ∧ (taskTest.rename shuffle).chars { nullability := .add }
        = taskTest.chars { nullability := .add }) := by
  have herase : ({ nullability := .add } : GenerateSettings).eraseGenericParameters = true := rfl
  have hparameters : taskTest.genericParameters = ["T", "TKey", "Task"] := by decide
  have h : Respelling taskTest shuffle := by
    refine ⟨fun name hname => ?_, ?_, ?_⟩
    · simp only [hparameters, List.mem_cons, List.not_mem_nil, or_false, not_or] at hname
      simp [shuffle, hname]
    · rw [hparameters]
      decide
    · rw [hparameters]
      decide
  exact ⟨⟨herase, h⟩, by decide, TestMethod.chars_rename herase h⟩

end Suite

end TestScaffold
