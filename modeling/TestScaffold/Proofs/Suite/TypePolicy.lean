import TestScaffold.Proofs.Suite.Respelling
import TestScaffold.Proofs.TypeExpr.Shape
/-!
# What a type policy leaves alone

Before a type is written into a test, generic parameters are replaced everywhere in it and
the marks at its root are set. What becomes of a type is said node by node: a node is found
by the branches that lead to it (`TypeExpr.nodeAt?`), and `NodeAdapted` relates it to the
node in the same place of the adapted type.

Adapting is a normalisation. A second time changes nothing (`TypePolicy.adapt_adapt`), and
of two policies that differ in their marks only the last one counts
(`TypePolicy.setNullable_erase_setNullable`). That whether a type is exempt is decided by
its name behind the erasure is what makes this so: the name is then the same both times.

An adapted type should be one that can be written and read back. A tuple is an exception,
as its name is empty: were the empty name a generic parameter, the tuple would be called
`object`, and its text would say nothing of it (`TypePolicy.canonical_adapt_iff`,
`TypePolicy.parse_adapt_iff`). No generic parameter that a type names is empty.
-/

namespace TestScaffold

namespace TypeExpr

/-! ## Nodes and the ways to them -/

/-- A step from a type to one right inside it. -/
inductive Branch where
  /-- To a generic argument. -/
  | argument (index : Nat)
  /-- To a component of a tuple. -/
  | component (index : Nat)
deriving DecidableEq, Repr

/-- The type behind a branch. -/
def child? (t : TypeExpr) : Branch → Option TypeExpr
  | .argument i => t.genericArguments[i]?
  | .component i => t.tupleComponents[i]?

/-- The node to which some branches lead. -/
def nodeAt? (t : TypeExpr) : List Branch → Option TypeExpr
  | [] => some t
  | b :: path => (t.child? b).bind fun child => child.nodeAt? path

/-- The nodes of a type are what branches lead to. -/
theorem isNode_iff_exists_nodeAt? {t u : TypeExpr} :
    IsNode t u ↔ ∃ path, t.nodeAt? path = some u := by
  constructor
  · intro h
    induction h with
    | self => exact ⟨[], rfl⟩
    | argument ha _ ih =>
      obtain ⟨path, hpath⟩ := ih
      obtain ⟨i, hi⟩ := List.mem_iff_getElem?.mp ha
      exact ⟨.argument i :: path, by rw [nodeAt?, child?, hi, Option.bind_some, hpath]⟩
    | component hc _ ih =>
      obtain ⟨path, hpath⟩ := ih
      obtain ⟨i, hi⟩ := List.mem_iff_getElem?.mp hc
      exact ⟨.component i :: path, by rw [nodeAt?, child?, hi, Option.bind_some, hpath]⟩
  · rintro ⟨path, hpath⟩
    induction path generalizing t with
    | nil =>
      cases hpath
      exact .self _
    | cons b path ih =>
      obtain ⟨child, hchild, hrest⟩ := Option.bind_eq_some_iff.mp hpath
      cases b with
      | argument i => exact .argument (List.mem_of_getElem? hchild) (ih hrest)
      | component i => exact .component (List.mem_of_getElem? hchild) (ih hrest)

/-! ## Marks -/

/-- Marks at the root do not matter for being canonical. -/
theorem Canonical.marks {p : String → Prop} {t : TypeExpr} (h : Canonical p t)
    (ranks : List ArrayRank) (nullable : Bool) :
    Canonical p { t with arrayRanks := ranks, nullable } := by
  cases h with
  | named hname => exact .named hname
  | generic hname hne harguments => exact .generic hname hne harguments
  | tuple hne hcomponents => exact .tuple hne hcomponents

/-- A tuple inside a canonical type has no name. -/
theorem Canonical.name_of_isNode {p : String → Prop} {t u : TypeExpr} (h : Canonical p t)
    (hu : IsNode t u) (hcomponents : u.tupleComponents ≠ []) : u.name = "" := by
  induction hu with
  | self t =>
    cases h with
    | named _ | generic _ _ _ => exact absurd rfl hcomponents
    | tuple _ _ => rfl
  | argument ha _ ih =>
    cases h with
    | named _ | tuple _ _ => exact absurd ha List.not_mem_nil
    | generic _ _ harguments => exact ih (harguments _ ha) hcomponents
  | component hc _ ih =>
    cases h with
    | named _ | generic _ _ _ => exact absurd hc List.not_mem_nil
    | tuple _ hcanonical => exact ih (hcanonical _ hc) hcomponents

/-- A canonical type is read back from its text. -/
theorem Canonical.parse_toString {t : TypeExpr} (h : Canonical IsTypeName t) :
    parse (toString t) = t := by
  refine h.ofChars_of_spaced _ ?_
  rw [show (toString t).toList = t.chars from String.toList_ofList]
  exact h.spaced_chars

/-- A tuple inside a type that is read has no name. -/
theorem name_of_isNode_parse {text : String} {u : TypeExpr} (hu : IsNode (parse text) u)
    (hcomponents : u.tupleComponents ≠ []) : u.name = "" := by
  obtain ⟨part, -, rfl⟩ := isNode_ofChars_iff.mp hu
  exact name_ofChars hcomponents

end TypeExpr

namespace Suite

open TypeExpr

/-- **What becomes of the node in some place of a type.** Its name is replaced when it is
one of those that are erased, it has as many types inside it and as many ranks as before,
and below the root it has the same marks. -/
structure NodeAdapted (erased : List String) (path : List Branch) (node adapted : TypeExpr) :
    Prop where
  /-- The name is erased or kept. -/
  name : adapted.name = if node.name ∈ erased then "object" else node.name
  /-- Generic arguments stay generic arguments. -/
  arguments : adapted.genericArguments.length = node.genericArguments.length
  /-- Components stay components. -/
  components : adapted.tupleComponents.length = node.tupleComponents.length
  /-- No rank is added or taken away. -/
  ranks : adapted.arrayRanks.length = node.arrayRanks.length
  /-- The marks are those of the node, unless it is the root. -/
  marks : path ≠ [] → adapted.nullable = node.nullable ∧ adapted.arrayRanks = node.arrayRanks

namespace TypePolicy

variable (p : TypePolicy) (t : TypeExpr)

/-! ## Erasure -/

theorem erase_eq :
    p.erase t
      = { t with
          name := p.eraseName t.name
          genericArguments := t.genericArguments.map p.erase
          tupleComponents := t.tupleComponents.map p.erase } := by
  obtain ⟨name, arguments, ranks, nullable, components⟩ := t
  rw [erase, eraseAll_eq_map, eraseAll_eq_map]

theorem eraseName_eraseName (name : String) :
    p.eraseName (p.eraseName name) = p.eraseName name := by
  have hobject : p.eraseName erasedName = erasedName := by
    unfold eraseName
    split <;> rfl
  by_cases h : p.erased.contains name = true
  · rw [show p.eraseName name = erasedName from if_pos h, hobject]
  · have hkept : p.eraseName name = name := if_neg h
    rw [hkept, hkept]

/-- **A second erasure erases nothing.** -/
theorem erase_erase : ∀ t : TypeExpr, p.erase (p.erase t) = p.erase t
  | ⟨name, arguments, ranks, nullable, components⟩ => by
    have harguments : ∀ a ∈ arguments, (p.erase ∘ p.erase) a = p.erase a :=
      fun a _ => erase_erase a
    have hcomponents : ∀ c ∈ components, (p.erase ∘ p.erase) c = p.erase c :=
      fun c _ => erase_erase c
    rw [erase_eq p ⟨name, arguments, ranks, nullable, components⟩, erase_eq]
    simp only [eraseName_eraseName, List.map_map, List.map_congr_left harguments,
      List.map_congr_left hcomponents]

/-- Erasure does not depend on what becomes of marks. -/
theorem erase_of_nullability (nullability : Nullability) :
    ∀ t : TypeExpr, ({ p with nullability } : TypePolicy).erase t = p.erase t
  | ⟨name, arguments, ranks, nullable, components⟩ => by
    have harguments : ∀ a ∈ arguments,
        ({ p with nullability } : TypePolicy).erase a = p.erase a :=
      fun a _ => erase_of_nullability nullability a
    have hcomponents : ∀ c ∈ components,
        ({ p with nullability } : TypePolicy).erase c = p.erase c :=
      fun c _ => erase_of_nullability nullability c
    rw [erase_eq, erase_eq]
    simp only [List.map_congr_left harguments, List.map_congr_left hcomponents]
    rfl

/-! ## Marks behind the erasure -/

theorem erase_marks (ranks : List ArrayRank) (nullable : Bool) :
    p.erase { t with arrayRanks := ranks, nullable }
      = { p.erase t with arrayRanks := ranks, nullable } := by
  rw [erase_eq, erase_eq]

/-- An erased type whose marks are set is an erased type. -/
theorem erase_setNullable_erase (nullable : Bool) :
    p.erase (p.setNullable nullable (p.erase t)) = p.setNullable nullable (p.erase t) := by
  unfold setNullable
  rw [erase_marks, erase_erase]

/-- **Of marks that are set twice the last ones count**, since the type is exempt both times
or neither time. -/
theorem setNullable_setNullable (first last : Bool) :
    p.setNullable last (p.setNullable first t) = p.setNullable last t := by
  unfold setNullable
  by_cases hexempt : p.exempt.contains t.name = true
  · simp only [hexempt, if_true, List.map_map, Function.comp_def]
  · simp only [hexempt, if_false, List.map_map, Function.comp_def, Bool.false_eq_true]

theorem setNullable_erase_setNullable (first last : Bool) :
    p.setNullable last (p.erase (p.setNullable first (p.erase t)))
      = p.setNullable last (p.erase t) := by
  rw [erase_setNullable_erase, setNullable_setNullable]

/-- **To adapt a type again changes nothing.** -/
theorem adapt_adapt : p.adapt (p.adapt t) = p.adapt t := by
  unfold adapt applyNullability
  split
  · exact p.erase_erase t
  · exact p.setNullable_erase_setNullable t false false
  · exact p.setNullable_erase_setNullable t true true

/-- A policy that strips marks. -/
theorem adapt_of_strip :
    ({ p with nullability := .strip } : TypePolicy).adapt t = p.setNullable false (p.erase t) := by
  rw [adapt, erase_of_nullability]
  rfl

/-- A policy that adds marks. -/
theorem adapt_of_add :
    ({ p with nullability := .add } : TypePolicy).adapt t = p.setNullable true (p.erase t) := by
  rw [adapt, erase_of_nullability]
  rfl

/-! ## Node by node -/

theorem child?_erase (b : Branch) : (p.erase t).child? b = (t.child? b).map p.erase := by
  rw [erase_eq]
  cases b <;> exact List.getElem?_map ..

theorem nodeAt?_erase (path : List Branch) :
    (p.erase t).nodeAt? path = (t.nodeAt? path).map p.erase := by
  induction path generalizing t with
  | nil => rfl
  | cons b path ih =>
    rw [nodeAt?, nodeAt?, child?_erase]
    cases t.child? b with
    | none => rfl
    | some child => exact ih child

/-- Setting marks leaves what is inside a type. -/
theorem child?_applyNullability (b : Branch) :
    (p.applyNullability t).child? b = t.child? b := by
  unfold applyNullability
  split <;> cases b <;> rfl

theorem eraseName_eq_ite (name : String) :
    p.eraseName name = if name ∈ p.erased then "object" else name := by
  simp only [eraseName, erasedName, List.contains_iff_mem]

/-- A node below the root is erased. -/
theorem nodeAdapted_erase (path : List Branch) : NodeAdapted p.erased path t (p.erase t) := by
  rw [erase_eq]
  exact ⟨p.eraseName_eq_ite t.name, List.length_map _, List.length_map _, rfl,
    fun _ => ⟨rfl, rfl⟩⟩

/-- The root is erased and has its marks set. -/
theorem nodeAdapted_root : NodeAdapted p.erased [] t (p.adapt t) := by
  obtain ⟨hname, harguments, hcomponents, hranks, -⟩ := p.nodeAdapted_erase t []
  unfold adapt applyNullability
  split
  · exact ⟨hname, harguments, hcomponents, hranks, fun h => absurd rfl h⟩
  all_goals
    refine ⟨hname, harguments, hcomponents, ?_, fun h => absurd rfl h⟩
    exact (List.length_map _).trans hranks

/-- **A type is adapted node by node.** -/
theorem nodeAdapted (path : List Branch) :
    Option.Rel (NodeAdapted p.erased path) (t.nodeAt? path) ((p.adapt t).nodeAt? path) := by
  cases path with
  | nil => exact .some (p.nodeAdapted_root t)
  | cons b path =>
    have hinside : (p.adapt t).nodeAt? (b :: path) = (t.nodeAt? (b :: path)).map p.erase := by
      rw [← nodeAt?_erase, nodeAt?, nodeAt?, adapt, child?_applyNullability]
    rw [hinside]
    cases t.nodeAt? (b :: path) with
    | none => exact .none
    | some node => exact .some (p.nodeAdapted_erase node _)

variable {p t}

/-- Every node of a type is adapted to a node. -/
theorem exists_isNode_adapt {u : TypeExpr} (hu : IsNode t u) :
    ∃ v path, IsNode (p.adapt t) v ∧ NodeAdapted p.erased path u v := by
  obtain ⟨path, hpath⟩ := isNode_iff_exists_nodeAt?.mp hu
  have hrel := p.nodeAdapted t path
  rw [hpath] at hrel
  generalize hadapted : (p.adapt t).nodeAt? path = found at hrel
  cases hrel with
  | some hnode => exact ⟨_, path, isNode_iff_exists_nodeAt?.mpr ⟨path, hadapted⟩, hnode⟩

/-- Every node of an adapted type is what a node is adapted to. -/
theorem exists_isNode_of_adapt {v : TypeExpr} (hv : IsNode (p.adapt t) v) :
    ∃ u path, IsNode t u ∧ NodeAdapted p.erased path u v := by
  obtain ⟨path, hpath⟩ := isNode_iff_exists_nodeAt?.mp hv
  have hrel := p.nodeAdapted t path
  rw [hpath] at hrel
  generalize hbefore : t.nodeAt? path = found at hrel
  cases hrel with
  | some hnode => exact ⟨_, path, isNode_iff_exists_nodeAt?.mpr ⟨path, hbefore⟩, hnode⟩

/-- No name but `object` that is erased is left. -/
theorem name_of_isNode_adapt {v : TypeExpr} (hv : IsNode (p.adapt t) v)
    (hname : v.name ∈ p.erased) : v.name = "object" := by
  obtain ⟨u, path, -, hnode⟩ := exists_isNode_of_adapt hv
  have h := hnode.name
  split at h
  · exact h
  · rename_i hkept
    exact absurd (h ▸ hname) hkept

/-! ## Canonical types -/

/-- **What is in the way of reading an adapted type back**: a tuple, when names that are
empty are erased. -/
def NamesTuple (p : TypePolicy) (t : TypeExpr) : Prop :=
  "" ∈ p.erased ∧ ∃ u, IsNode t u ∧ u.tupleComponents ≠ []

/-- An erased name is a type name. -/
theorem isTypeName_eraseName {name : String} (h : IsTypeName name) :
    IsTypeName (p.eraseName name) := by
  unfold eraseName
  split
  · decide
  · exact h

theorem canonical_erase (h : Canonical IsTypeName t) :
    ¬p.NamesTuple t → Canonical IsTypeName (p.erase t) := by
  induction h with
  | @named name ranks nullable hname =>
    intro _
    rw [erase_eq]
    exact .named (isTypeName_eraseName hname)
  | @generic name arguments ranks nullable hname hne _ ih =>
    intro hnot
    rw [erase_eq]
    refine .generic (isTypeName_eraseName hname) (by simpa using hne) ?_
    rw [List.forall_mem_map]
    exact fun a ha => ih a ha fun ⟨hempty, u, hu, hcomponents⟩ =>
      hnot ⟨hempty, u, .argument ha hu, hcomponents⟩
  | @tuple components ranks nullable hne _ ih =>
    intro hnot
    have hempty : "" ∉ p.erased := fun hempty => hnot ⟨hempty, _, .self _, hne⟩
    rw [erase_eq]
    dsimp only
    rw [eraseName_eq_ite, if_neg hempty]
    refine .tuple (by simpa using hne) ?_
    rw [List.forall_mem_map]
    exact fun c hc => ih c hc fun ⟨hempty, u, hu, hcomponents⟩ =>
      hnot ⟨hempty, u, .component hc hu, hcomponents⟩

theorem canonical_adapt (h : Canonical IsTypeName t) (hnot : ¬p.NamesTuple t) :
    Canonical IsTypeName (p.adapt t) := by
  have herased := canonical_erase h hnot
  unfold adapt applyNullability
  split
  · exact herased
  · exact herased.marks _ _
  · exact herased.marks _ _

/-- A tuple that is called `object` is among the nodes. -/
theorem exists_named_tuple (h : Canonical IsTypeName t) (hnames : p.NamesTuple t) :
    ∃ v, IsNode (p.adapt t) v ∧ v.tupleComponents ≠ [] ∧ v.name ≠ "" := by
  obtain ⟨hempty, u, hu, hcomponents⟩ := hnames
  obtain ⟨v, path, hv, hnode⟩ := exists_isNode_adapt (p := p) hu
  refine ⟨v, hv, ?_, ?_⟩
  · rwa [← List.length_pos_iff, hnode.components, List.length_pos_iff]
  · rw [hnode.name, h.name_of_isNode hu hcomponents, if_pos hempty]
    decide

/-- **Which canonical types are adapted to canonical ones.** -/
theorem canonical_adapt_iff (h : Canonical IsTypeName t) :
    Canonical IsTypeName (p.adapt t) ↔ ¬p.NamesTuple t := by
  refine ⟨fun hadapted hnames => ?_, canonical_adapt h⟩
  obtain ⟨v, hv, hcomponents, hname⟩ := exists_named_tuple h hnames
  exact hname (hadapted.name_of_isNode hv hcomponents)

/-- **Which canonical types are adapted to types that are read back.** -/
theorem parse_adapt_iff (h : Canonical IsTypeName t) :
    parse (toString (p.adapt t)) = p.adapt t ↔ ¬p.NamesTuple t := by
  refine ⟨fun hread hnames => ?_, fun hnot => (canonical_adapt h hnot).parse_toString⟩
  obtain ⟨v, hv, hcomponents, hname⟩ := exists_named_tuple h hnames
  rw [← hread] at hv
  exact hname (name_of_isNode_parse hv hcomponents)

end TypePolicy

/-- No generic parameter that types name is empty. -/
theorem empty_notMem_collectGenericParameters (types : List TypeExpr) :
    "" ∉ collectGenericParameters types := fun h =>
  absurd (isGenericParameterName_of_mem_all (mem_sortNames.mp h)) (by decide)

/-! ## The adapted types of a test -/

/-- **Adapting a type is a normalisation.** Node by node the type keeps its shape; with
erasure on, no node has the name of a generic parameter other than `object`, and all other
names stay; below the root all marks stay. A second time nothing changes, and of stripping
and adding marks the last one counts. A canonical type stays canonical and is read back
from its text, unless the empty name is among the parameters that are erased and there is a
tuple in the type; and the empty name is never a parameter that types name. -/
theorem adapt_normalises (settings : GenerateSettings) (generics : List String)
    (t : TypeExpr) :
    let erased := if settings.eraseGenericParameters then generics else []
    let adapt := (TypePolicy.ofSettings settings generics).adapt
    let strip := (TypePolicy.ofSettings { settings with nullability := .strip } generics).adapt
    let add := (TypePolicy.ofSettings { settings with nullability := .add } generics).adapt
    let named := settings.eraseGenericParameters = true ∧ "" ∈ generics
      ∧ ∃ u, IsNode t u ∧ u.tupleComponents ≠ []
    (∀ path, Option.Rel (NodeAdapted erased path) (t.nodeAt? path) ((adapt t).nodeAt? path))
    ∧ (settings.eraseGenericParameters = true →
        ∀ u, IsNode (adapt t) u → u.name ∈ generics → u.name = "object")
    ∧ adapt (adapt t) = adapt t
    ∧ strip (add t) = strip t ∧ add (strip t) = add t
    ∧ (Canonical IsTypeName t → (Canonical IsTypeName (adapt t) ↔ ¬named)
        ∧ (parse (toString (adapt t)) = adapt t ↔ ¬named))
    ∧ ∀ types, "" ∉ collectGenericParameters types := by
  intro erased adapt strip add named
  let p := TypePolicy.ofSettings settings generics
  have hnamed : p.NamesTuple t ↔ named := by
    show "" ∈ (if settings.eraseGenericParameters then generics else []) ∧ _ ↔ _
    cases hflag : settings.eraseGenericParameters <;> simp [named, hflag]
  have hstrip : ∀ u, strip u = p.setNullable false (p.erase u) := p.adapt_of_strip
  have hadd : ∀ u, add u = p.setNullable true (p.erase u) := p.adapt_of_add
  refine ⟨p.nodeAdapted t, fun hflag u hu hname => ?_, p.adapt_adapt t, ?_, ?_, fun h => ?_,
    empty_notMem_collectGenericParameters⟩
  · refine TypePolicy.name_of_isNode_adapt (p := p) hu ?_
    show _ ∈ (if settings.eraseGenericParameters then generics else [])
    rwa [if_pos hflag]
  · rw [hadd, hstrip, hstrip, p.setNullable_erase_setNullable]
  · rw [hstrip, hadd, hadd, p.setNullable_erase_setNullable]
  · rw [← hnamed]
    exact ⟨TypePolicy.canonical_adapt_iff h, TypePolicy.parse_adapt_iff h⟩

/-- The type `Dictionary<TKey, (T, List<T>?)>[]`. -/
def dictionary : TypeExpr :=
  (generic "Dictionary" [named "TKey",
    tuple [named "T", (generic "List" [named "T"]).withNullable true]]).withRanks [false]

/-- With marks added, `Dictionary<TKey, (T, List<T>?)>[]` is adapted to
`Dictionary<object, (object, List<object>?)>?[]?`. -/
theorem adapt_normalises_dictionary :
    let policy := TypePolicy.ofSettings { nullability := .add } ["T", "TKey"]
    Canonical IsTypeName dictionary
    ∧ toString (policy.adapt dictionary) = "Dictionary<object, (object, List<object>?)>?[]?"
    ∧ Canonical IsTypeName (policy.adapt dictionary)
    ∧ parse (toString (policy.adapt dictionary)) = policy.adapt dictionary
    ∧ ∀ u, IsNode (policy.adapt dictionary) u → u.name ∉ ["T", "TKey"] := by
  intro policy
  have hkey : Canonical IsTypeName (named "TKey") := .named (by decide)
  have hT : Canonical IsTypeName (named "T") := .named (by decide)
  have hlist : Canonical IsTypeName ((generic "List" [named "T"]).withNullable true) :=
    .generic (by decide) (List.cons_ne_nil _ _) (List.forall_mem_singleton.mpr hT)
  have hpair : Canonical IsTypeName
      (tuple [named "T", (generic "List" [named "T"]).withNullable true]) :=
    .tuple (List.cons_ne_nil _ _)
      (List.forall_mem_cons.mpr ⟨hT, List.forall_mem_singleton.mpr hlist⟩)
  have hcanonical : Canonical IsTypeName dictionary :=
    .generic (by decide) (List.cons_ne_nil _ _)
      (List.forall_mem_cons.mpr ⟨hkey, List.forall_mem_singleton.mpr hpair⟩)
  obtain ⟨-, hnames, -, -, -, hread, -⟩ :=
    adapt_normalises { nullability := .add } ["T", "TKey"] dictionary
  have hempty : "" ∉ ["T", "TKey"] := by decide
  refine ⟨hcanonical, by decide, (hread hcanonical).1.mpr fun h => hempty h.2.1,
    (hread hcanonical).2.mpr fun h => hempty h.2.1, fun u hu hname => ?_⟩
  rw [hnames rfl u hu hname] at hname
  exact absurd hname (by decide)

/-- **A tuple is called `object`** when the empty name is a generic parameter, and is then
no longer read back. -/
theorem tuple_called_object :
    let pair := tuple [named "int", named "string"]
    let adapted := (TypePolicy.ofSettings {} [""]).adapt pair
    Canonical IsTypeName pair ∧ adapted.name = "object"
    ∧ ¬Canonical IsTypeName adapted ∧ parse (toString adapted) ≠ adapted := by
  intro pair adapted
  have hcanonical : Canonical IsTypeName pair :=
    .tuple (List.cons_ne_nil _ _) (List.forall_mem_cons.mpr
      ⟨.named (by decide), List.forall_mem_singleton.mpr (.named (by decide))⟩)
  have hnames : (TypePolicy.ofSettings {} [""]).NamesTuple pair :=
    ⟨by decide, pair, .self pair, List.cons_ne_nil _ _⟩
  exact ⟨hcanonical, by decide,
    fun h => (TypePolicy.canonical_adapt_iff hcanonical).mp h hnames,
    fun h => (TypePolicy.parse_adapt_iff hcanonical).mp h hnames⟩

end Suite

end TestScaffold
