import TestScaffold.Proofs.Suite.Collection
import TestScaffold.Suite.TestMethod
/-!
# The widest constructor

The object under test is made with the widest testable constructor of its class. The
choice is a fold over the constructors, `wider` being one step of it.

Which constructor that is depends on the order of the constructors when several are equally
wide. `IsWidest` says it by the constructors in front of the chosen one and those behind it,
and leaves no choice (`IsWidest.unique`). What the fold has found is the widest of the
constructors seen so far (`IsBest`), and one step keeps it so (`IsBest.concat`).
-/

namespace TestScaffold.Suite

/-- The wider one of the best constructor so far and the next one, the first of them on a
tie. -/
def wider (best : Option Constructor) (next : Constructor) : Option Constructor :=
  match best with
  | some b => if next.parameters.length ≤ b.parameters.length then some b else some next
  | none => some next

theorem primaryConstructor_eq (c : Class) :
    primaryConstructor c
      = ((c.constructors.filter isTestable).foldl wider none).getD (.implicit c.name) :=
  rfl

/-! ## The choice among equally wide constructors -/

/-- **The widest testable constructor, the earliest one on a tie**: testable constructors in
front of it have fewer parameters, and those behind it at most as many. -/
def IsWidest (constructors : List Constructor) (found : Constructor) : Prop :=
  ∃ before after, constructors = before ++ found :: after ∧ Testable found
    ∧ (∀ k ∈ before, Testable k → k.parameters.length < found.parameters.length)
    ∧ ∀ k ∈ after, Testable k → k.parameters.length ≤ found.parameters.length

/-- **What is found among the constructors seen so far**: the widest one, or nothing when none
of them is testable. -/
def IsBest (seen : List Constructor) : Option Constructor → Prop
  | none => ∀ k ∈ seen, ¬Testable k
  | some found => IsWidest seen found

section

variable {constructors : List Constructor} {found other next : Constructor}

theorem IsWidest.mem (h : IsWidest constructors found) :
    found ∈ constructors ∧ Testable found := by
  obtain ⟨before, after, rfl, htestable, -⟩ := h
  exact ⟨by simp, htestable⟩

/-- No testable constructor is wider than the widest one. -/
theorem IsWidest.le (h : IsWidest constructors found) :
    ∀ k ∈ constructors, Testable k → k.parameters.length ≤ found.parameters.length := by
  obtain ⟨before, after, rfl, -, hbefore, hafter⟩ := h
  intro k hk htestable
  rcases List.mem_append.mp hk with hk | hk
  · exact Nat.le_of_lt (hbefore k hk htestable)
  · rcases List.mem_cons.mp hk with rfl | hk
    · exact Nat.le_refl _
    · exact hafter k hk htestable

/-- **There is one widest constructor at most.** -/
theorem IsWidest.unique (hfound : IsWidest constructors found)
    (hother : IsWidest constructors other) : found = other := by
  -- the later one of two would be wider than the earlier one, and at most as wide
  have hlater : ∀ {a b : Constructor} {before between after : List Constructor},
      Testable a → (∀ k ∈ before ++ a :: between, Testable k →
        k.parameters.length < b.parameters.length) →
      (∀ k ∈ between ++ b :: after, Testable k →
        k.parameters.length ≤ a.parameters.length) → ¬Testable b := by
    intro a b before between after ha hbefore hafter hb
    have hlt := hbefore a (by simp) ha
    have hle := hafter b (by simp) hb
    omega
  obtain ⟨before, after, rfl, htestable, hbefore, hafter⟩ := hfound
  obtain ⟨before', after', heq, htestable', hbefore', hafter'⟩ := hother
  rcases List.append_eq_append_iff.mp heq with ⟨s, hs, hrest⟩ | ⟨s, hs, hrest⟩
  · cases s with
    | nil => exact (List.cons.inj hrest).1
    | cons a between =>
      obtain ⟨rfl, rfl⟩ := List.cons.inj hrest
      exact absurd htestable' (hlater htestable (hs ▸ hbefore') hafter)
  · cases s with
    | nil => exact (List.cons.inj hrest).1.symm
    | cons a between =>
      obtain ⟨rfl, rfl⟩ := List.cons.inj hrest
      exact absurd htestable (hlater htestable' (hs ▸ hbefore) hafter')

/-- A constructor behind the others, when it is not testable or not wider, changes nothing. -/
theorem IsWidest.concat (h : IsWidest constructors found)
    (hnext : Testable next → next.parameters.length ≤ found.parameters.length) :
    IsWidest (constructors ++ [next]) found := by
  obtain ⟨before, after, rfl, htestable, hbefore, hafter⟩ := h
  refine ⟨before, after ++ [next], by simp, htestable, hbefore, ?_⟩
  rw [List.forall_mem_append]
  exact ⟨hafter, List.forall_mem_singleton.mpr hnext⟩

/-- A testable constructor behind the others is the widest one when it is wider than they
are. -/
theorem isWidest_concat (htestable : Testable next)
    (h : ∀ k ∈ constructors, Testable k → k.parameters.length < next.parameters.length) :
    IsWidest (constructors ++ [next]) next :=
  ⟨constructors, [], rfl, htestable, h, by simp⟩

/-- **One step of the choice.** -/
theorem IsBest.concat {best : Option Constructor} (h : IsBest constructors best)
    (next : Constructor) :
    IsBest (constructors ++ [next]) (if Testable next then wider best next else best) := by
  split_ifs with hnext
  · cases best with
    | none => exact isWidest_concat hnext fun k hk htestable => absurd htestable (h k hk)
    | some found =>
      have hfound : IsWidest constructors found := h
      unfold wider
      dsimp only
      split_ifs with hle
      · exact hfound.concat fun _ => hle
      · exact isWidest_concat hnext fun k hk htestable =>
          Nat.lt_of_le_of_lt (hfound.le k hk htestable) (Nat.not_le.mp hle)
  · cases best with
    | none => exact List.forall_mem_append.mpr ⟨h, List.forall_mem_singleton.mpr hnext⟩
    | some found => exact IsWidest.concat h fun htestable => absurd htestable hnext

/-- **The choice.** -/
theorem isBest_foldl_wider (constructors : List Constructor) :
    IsBest constructors ((constructors.filter isTestable).foldl wider none) := by
  induction constructors using List.reverseRecOn with
  | nil => exact List.forall_mem_nil _
  | append_singleton constructors next ih =>
    have hstep := ih.concat next
    rw [List.filter_append]
    by_cases hnext : Testable next
    · rw [if_pos hnext] at hstep
      simpa [isTestable_iff.mpr hnext] using hstep
    · rw [if_neg hnext] at hstep
      simpa [mt isTestable_iff.mp hnext] using hstep

end

/-! ## The constructor of a class -/

/-- **Which constructor is chosen**: the widest testable one if there is one, and otherwise the
implicit one. -/
theorem isWidest_primaryConstructor (c : Class) :
    (∃ k ∈ c.constructors, Testable k) ∧ IsWidest c.constructors (primaryConstructor c)
      ∨ (∀ k ∈ c.constructors, ¬Testable k) ∧ primaryConstructor c = .implicit c.name := by
  have hbest := isBest_foldl_wider c.constructors
  rw [primaryConstructor_eq]
  cases hfound : (c.constructors.filter isTestable).foldl wider none with
  | none =>
    rw [hfound] at hbest
    exact .inr ⟨hbest, rfl⟩
  | some found =>
    rw [hfound] at hbest
    have hwidest : IsWidest c.constructors found := hbest
    exact .inl ⟨⟨found, hwidest.mem⟩, hwidest⟩

/-- **The widest constructor of a class is one of its constructors**, unless it is the
implicit one. -/
theorem primaryConstructor_mem (c : Class) :
    primaryConstructor c ∈ c.constructors ∨ primaryConstructor c = .implicit c.name := by
  rcases isWidest_primaryConstructor c with ⟨-, hwidest⟩ | ⟨-, himplicit⟩
  · exact .inl hwidest.mem.1
  · exact .inr himplicit

end TestScaffold.Suite
