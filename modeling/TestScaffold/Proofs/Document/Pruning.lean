import Mathlib.Data.List.Flatten
import TestScaffold.Proofs.Document.Intake
/-!
# Ignored methods

The list of ignored names is looked up in the midst of the intake, when a class is being
read. To leave a method out is the same as to delete its symbol beforehand:
`DocumentSymbol.pruneAll` takes the ignored methods out of a forest of symbols, and the
intake of what is left, without a list, is the intake of the forest with the list
(`intake_eq_intake_prune`).

Three things are called by names that may agree: constructors, methods that are
constructors by their name, and methods. Only methods are ignored, and they are looked up
without their generic parameters (`DocumentSymbol.IsIgnored`). Pruning follows the intake
through the namespaces and stops at the classes, since a class inside a class is not read.
-/

namespace TestScaffold

namespace DocumentSymbol

/-! ## Pruning -/

/-- **A method that is ignored**: one with a listed name in front of its generic
parameters. -/
def IsIgnored (ignored : List String) (s : DocumentSymbol) : Prop :=
  s.kind = .methodKind ∧ s.name ≠ ".ctor" ∧ s.baseName ∈ ignored

instance (ignored : List String) : DecidablePred (IsIgnored ignored) :=
  fun _ => inferInstanceAs (Decidable (_ ∧ _ ∧ _))

/-- The symbols that are not ignored. -/
def unignored (ignored : List String) (symbols : List DocumentSymbol) : List DocumentSymbol :=
  symbols.filter fun s => ¬s.IsIgnored ignored

theorem unignored_cons (ignored : List String) (s : DocumentSymbol)
    (symbols : List DocumentSymbol) :
    unignored ignored (s :: symbols)
      = if s.IsIgnored ignored then unignored ignored symbols
        else s :: unignored ignored symbols := by
  by_cases h : s.IsIgnored ignored <;> simp [unignored, h]

mutual
/-- A symbol without the ignored methods of its classes. -/
def prune (ignored : List String) : DocumentSymbol → DocumentSymbol
  | ⟨name, detail, kind, range, selectionRange, children⟩ =>
    { name, detail, kind, range, selectionRange
      children :=
        if kind = .namespaceKind then pruneAll ignored children
        else if kind.isClassLike then unignored ignored children
        else children }
/-- Some symbols without the ignored methods of their classes. -/
def pruneAll (ignored : List String) : List DocumentSymbol → List DocumentSymbol
  | [] => []
  | s :: symbols => prune ignored s :: pruneAll ignored symbols
end

variable {ignored : List String} {s : DocumentSymbol}

theorem prune_of_namespace (kind : s.kind = .namespaceKind) :
    s.prune ignored = { s with children := pruneAll ignored s.children } := by
  obtain ⟨name, detail, _, range, selectionRange, children⟩ := s
  cases kind
  rw [prune, if_pos rfl]

theorem isClassLike_iff {kind : SymbolKind} :
    kind.isClassLike = true ↔ kind ∈ [.classKind, .structKind, .interfaceKind, .enumKind] := by
  cases kind <;> decide

theorem prune_of_classLike
    (kind : s.kind ∈ [.classKind, .structKind, .interfaceKind, .enumKind]) :
    s.prune ignored = { s with children := unignored ignored s.children } := by
  obtain ⟨name, detail, k, range, selectionRange, children⟩ := s
  have hnamespace : k ≠ .namespaceKind := by
    rintro rfl
    simp at kind
  rw [prune, if_neg hnamespace, if_pos (isClassLike_iff.mpr kind)]

theorem prune_of_other
    (kind : s.kind ∉ [.namespaceKind, .classKind, .structKind, .interfaceKind, .enumKind]) :
    s.prune ignored = s := by
  obtain ⟨name, detail, k, range, selectionRange, children⟩ := s
  obtain ⟨hnamespace, hclass⟩ := not_or.mp (mt List.mem_cons.mpr kind)
  rw [prune, if_neg hnamespace, if_neg (mt isClassLike_iff.mp hclass)]

end DocumentSymbol

namespace Intake

open DocumentSymbol

variable {source : Source} {ignored : List String} {enclosing : Option String}
  {s : DocumentSymbol}

/-! ## Members -/

/-- **An ignored method comes to nothing**, and every other symbol to what it comes to
without a list. -/
theorem contribution_eq_ite (source : Source) (ignored : List String) (s : DocumentSymbol) :
    contribution source ignored s
      = if s.IsIgnored ignored then .nothing else contribution source [] s := by
  by_cases hctor : DeclaresConstructor s
  · have hnot : ¬s.IsIgnored ignored := fun h => not_declaresConstructor h.1 h.2.1 hctor
    rw [if_neg hnot, contribution_of_declaresConstructor hctor,
      contribution_of_declaresConstructor hctor]
  by_cases hkind : s.kind = .methodKind
  · have hname : s.name ≠ ".ctor" := fun h => hctor (.inr h)
    rw [contribution_of_method hkind hname, contribution_of_method hkind hname]
    simp only [IsIgnored, hkind, hname, ne_eq, not_false_eq_true, true_and, List.not_mem_nil,
      if_false]
  · have hnot : ¬s.IsIgnored ignored := fun h => hkind h.1
    rw [if_neg hnot, contribution_of_other hctor hkind, contribution_of_other hctor hkind]

/-- What is selected from the children of a class is what is selected from those that are
not ignored. -/
theorem filterMap_contributions {α : Type} (select : Contribution → Option α)
    (hnothing : select .nothing = none) (children : List DocumentSymbol) :
    (children.map (contribution source ignored)).filterMap select
      = ((unignored ignored children).map (contribution source [])).filterMap select := by
  induction children with
  | nil => rfl
  | cons s children ih =>
    rw [List.map_cons, List.filterMap_cons, contribution_eq_ite, ih, unignored_cons]
    by_cases h : s.IsIgnored ignored
    · rw [if_pos h, if_pos h, hnothing]
    · rw [if_neg h, if_neg h, List.map_cons, List.filterMap_cons]

/-! ## Classes -/

/-- **The intake of a class is that of the class without its ignored methods.** -/
theorem ofClassSymbol_eq (source : Source) (ignored : List String) (enclosing : Option String)
    (s : DocumentSymbol) :
    ofClassSymbol source ignored enclosing s
      = ofClassSymbol source [] enclosing
          { s with children := unignored ignored s.children } := by
  -- the header of a class does not depend on what stands inside it
  have hheader : classHeader source enclosing { s with children := unignored ignored s.children }
      = classHeader source enclosing s := rfl
  unfold ofClassSymbol
  rw [hheader]
  cases classHeader source enclosing s with
  | error e => rfl
  | ok header =>
    dsimp only
    rw [filterMap_contributions Contribution.constructor? rfl,
      filterMap_contributions Contribution.method? rfl,
      filterMap_contributions Contribution.failure? rfl]

/-- A method is no constructor, whether it is read or not. -/
theorem constructor?_of_isIgnored (h : s.IsIgnored ignored) :
    (contribution source [] s).constructor? = none := by
  rw [contribution_of_method h.1 h.2.1, if_neg List.not_mem_nil]
  cases methodOf source s <;> rfl

/-- The constructors of a class are those among the symbols that are not ignored. -/
theorem filterMap_constructor?_unignored (children : List DocumentSymbol) :
    ((unignored ignored children).map (contribution source [])).filterMap
        Contribution.constructor?
      = (children.map (contribution source [])).filterMap Contribution.constructor? := by
  induction children with
  | nil => rfl
  | cons s children ih =>
    rw [unignored_cons, List.map_cons, List.filterMap_cons]
    by_cases h : s.IsIgnored ignored
    · rw [if_pos h, constructor?_of_isIgnored h, ih]
    · rw [if_neg h, List.map_cons, List.filterMap_cons, ih]

/-- **A class without its ignored methods** is otherwise the class with them, and has none
but its failures. -/
theorem ofClassSymbol_unaffected (source : Source) (ignored : List String)
    (enclosing : Option String) (s : DocumentSymbol) :
    List.Forall₂ (fun c whole => c = { whole with methods := c.methods }
          ∧ c.methods.Sublist whole.methods)
        (ofClassSymbol source ignored enclosing s).classes
        (ofClassSymbol source [] enclosing s).classes
      ∧ (ofClassSymbol source ignored enclosing s).failures.Sublist
          (ofClassSymbol source [] enclosing s).failures := by
  have hsublist : ((unignored ignored s.children).map (contribution source [])).Sublist
      (s.children.map (contribution source [])) :=
    List.filter_sublist.map _
  unfold ofClassSymbol
  cases classHeader source enclosing s with
  | error e => exact ⟨.nil, .refl _⟩
  | ok header =>
    dsimp only
    rw [filterMap_contributions Contribution.constructor? rfl,
      filterMap_contributions Contribution.method? rfl,
      filterMap_contributions Contribution.failure? rfl, filterMap_constructor?_unignored]
    exact ⟨.cons ⟨rfl, hsublist.filterMap _⟩ .nil, hsublist.filterMap _⟩

/-! ## Through the namespaces -/

/-- **The intake of pruned symbols**, by induction on the symbols with the children of
namespaces. -/
theorem ofSymbols_eq (source : Source) (ignored : List String) :
    ∀ (enclosing : Option String) (symbols : List DocumentSymbol),
      ofSymbols source ignored enclosing symbols
        = ofSymbols source [] enclosing (pruneAll ignored symbols)
  | _, [] => rfl
  | enclosing, s :: symbols => by
    have hsymbol : ofSymbol source ignored enclosing s
        = ofSymbol source [] enclosing (s.prune ignored) := by
      by_cases hnamespace : s.kind = .namespaceKind
      · rw [ofSymbol_of_namespace hnamespace, prune_of_namespace hnamespace,
          ofSymbol_of_namespace (s := { s with children := _ }) hnamespace,
          ofSymbols_eq source ignored (some s.name) s.children]
      by_cases hclass : s.kind ∈ [.classKind, .structKind, .interfaceKind, .enumKind]
      · rw [ofSymbol_of_classLike hclass, prune_of_classLike hclass,
          ofSymbol_of_classLike (s := { s with children := _ }) hclass, ofClassSymbol_eq]
      · have hother : s.kind ∉
            [.namespaceKind, .classKind, .structKind, .interfaceKind, .enumKind] :=
          fun h => (List.mem_cons.mp h).elim hnamespace hclass
        rw [prune_of_other hother, ofSymbol_of_other hother, ofSymbol_of_other hother]
    rw [ofSymbols, pruneAll, ofSymbols, hsymbol, ofSymbols_eq source ignored enclosing symbols]
termination_by _ symbols => sizeOf symbols
decreasing_by
  · obtain ⟨name, detail, kind, range, selectionRange, children⟩ := s
    simp
    omega
  · simp only [List.cons.sizeOf_spec]
    omega

end Intake

/-- **To ignore methods is to prune the symbols.** The intake with a list of ignored names
is the intake of the symbols without the methods of these names. So the list changes
nothing but what comes of these methods: the classes have their other methods and all the
rest, no failure is added, and of the symbols inside the classes the ignored ones come to
nothing, read or not, and the others to what they come to without the list. -/
theorem intake_eq_intake_prune (text : String) (symbols : List DocumentSymbol)
    (ignored : List String) :
    intake text symbols ignored = intake text (DocumentSymbol.pruneAll ignored symbols) []
    ∧ List.Forall₂ (fun c whole => c = { whole with methods := c.methods }
          ∧ c.methods.Sublist whole.methods)
        (intake text symbols ignored).classes (intake text symbols []).classes
    ∧ (intake text symbols ignored).failures.Sublist (intake text symbols []).failures
    ∧ ∀ s, Intake.contribution ⟨text.toList⟩ ignored s
        = if s.IsIgnored ignored then .nothing else Intake.contribution ⟨text.toList⟩ [] s := by
  obtain ⟨places, hreached, hclasses, hfailures⟩ :=
    Intake.exists_reached ⟨text.toList⟩ ignored none symbols
  obtain ⟨others, hreached', hclasses', hfailures'⟩ :=
    Intake.exists_reached ⟨text.toList⟩ [] none symbols
  obtain rfl := hreached.unique hreached'
  have hunaffected := fun place : Option String × DocumentSymbol =>
    Intake.ofClassSymbol_unaffected ⟨text.toList⟩ ignored place.1 place.2
  refine ⟨Intake.ofSymbols_eq _ _ _ _, ?_, ?_, Intake.contribution_eq_ite _ _⟩
  · rw [intake, intake, hclasses, hclasses']
    have hsame : List.Forall₂ Eq others others := List.forall₂_same.mpr fun _ _ => rfl
    refine List.rel_flatMap hsame ?_
    rintro place _ rfl
    exact (hunaffected place).1
  · rw [intake, intake, hfailures, hfailures']
    exact List.Sublist.flatMap_right others fun place _ => (hunaffected place).2

/-- A constructor is not ignored, by whatever name, and a method whatever its generic
parameters. -/
example :
    let member (name : String) (kind : SymbolKind) : DocumentSymbol :=
      { name, kind, range := default, selectionRange := default }
    let cart := { member "Cart" .classKind with
      children := [member "Cart" .constructorKind, member ".ctor" .methodKind,
        member "Add<T>" .methodKind, member "Address" .methodKind] }
    (DocumentSymbol.pruneAll ["Cart", ".ctor", "Add"] [cart]).flatMap
        (fun s => s.children.map DocumentSymbol.name)
      = ["Cart", ".ctor", "Address"] := by
  decide

end TestScaffold
