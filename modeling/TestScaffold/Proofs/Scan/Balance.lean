import TestScaffold.Proofs.Scan.Nested
/-!
# Square brackets by counting

A reader that counts square brackets and nothing else goes by the **surplus** of a text, the
opening ones less the closing ones. A text is `Covered` by the brackets that are open in
front of it when each bracket that closes in it has one to close, and `Balanced` when it
needs none in front and leaves none open.

Nested texts are balanced; `[(]` is balanced and not nested.
-/

namespace TestScaffold.Scan

/-! ## The surplus -/

/-- How many more square brackets open in a text than close. -/
def surplus (s : List Char) : Int :=
  s.count '[' - s.count ']'

@[simp] theorem surplus_nil : surplus [] = 0 := rfl

@[simp] theorem surplus_append (a b : List Char) :
    surplus (a ++ b) = surplus a + surplus b := by
  simp only [surplus, List.count_append]
  omega

theorem surplus_cons (c : Char) (s : List Char) : surplus (c :: s) = surplus [c] + surplus s :=
  surplus_append [c] s

@[simp] theorem surplus_open : surplus ['['] = 1 := rfl

@[simp] theorem surplus_close : surplus [']'] = -1 := rfl

/-- Other characters do not count. -/
theorem surplus_of_ne {c : Char} (hopen : c ≠ '[') (hclose : c ≠ ']') : surplus [c] = 0 := by
  simp [surplus, hopen, hclose]

/-- A character opens, closes or does not count. -/
theorem surplus_cases (c : Char) :
    (c = '[' ∧ surplus [c] = 1) ∨ (c = ']' ∧ surplus [c] = -1)
      ∨ (c ≠ '[' ∧ c ≠ ']' ∧ surplus [c] = 0) := by
  by_cases hopen : c = '['
  · exact .inl ⟨hopen, by rw [hopen, surplus_open]⟩
  · by_cases hclose : c = ']'
    · exact .inr (.inl ⟨hclose, by rw [hclose, surplus_close]⟩)
    · exact .inr (.inr ⟨hopen, hclose, surplus_of_ne hopen hclose⟩)

/-! ## Covered texts -/

/-- A prefix of a text is empty or begins with its first character. -/
theorem forall_prefix_cons {P : List Char → Prop} {c : Char} {s : List Char} :
    (∀ q, q <+: c :: s → P q) ↔ P [] ∧ ∀ q, q <+: s → P (c :: q) := by
  constructor
  · intro h
    exact ⟨h [] List.nil_prefix, fun q hq => h (c :: q) (List.cons_prefix_cons.mpr ⟨rfl, hq⟩)⟩
  · rintro ⟨hnil, hcons⟩ q hq
    rcases List.prefix_cons_iff.mp hq with rfl | ⟨t, rfl, ht⟩
    · exact hnil
    · exact hcons t ht

/-- **Covered**: with `depth` square brackets open in front of it, every one that closes in
the text has one to close. -/
def Covered (depth : Int) (s : List Char) : Prop :=
  ∀ q, q <+: s → 0 ≤ depth + surplus q

namespace Covered

variable {depth : Int} {a b s : List Char} {c : Char}

theorem nonneg (h : Covered depth s) : 0 ≤ depth := by
  simpa using h [] List.nil_prefix

@[simp] theorem nil_iff : Covered depth [] ↔ 0 ≤ depth := by
  refine ⟨nonneg, fun h q hq => ?_⟩
  rw [List.prefix_nil.mp hq]
  simpa using h

/-- The brackets that are open behind the first character cover the rest. -/
theorem cons_iff : Covered depth (c :: s) ↔ 0 ≤ depth ∧ Covered (depth + surplus [c]) s := by
  simp only [Covered, forall_prefix_cons, surplus_nil, Int.add_zero, Int.add_assoc,
    ← surplus_cons]

theorem append (ha : Covered depth a) (hb : Covered (depth + surplus a) b) :
    Covered depth (a ++ b) := by
  intro q hq
  rcases List.prefix_or_prefix_of_prefix hq (List.prefix_append a b) with hqa | ⟨r, rfl⟩
  · exact ha q hqa
  · rw [surplus_append, ← Int.add_assoc]
    exact hb r ((List.prefix_append_right_inj a).mp hq)

/-- More brackets in front cover the text, too. -/
theorem mono (h : Covered depth s) {depth' : Int} (hle : depth ≤ depth') : Covered depth' s :=
  fun q hq => by
    have := h q hq
    omega

end Covered

/-- **A bracket is closed or the text behind it is covered.** The partner of an opening
bracket stands behind a text that closes all the brackets opened in between. -/
theorem covered_or_closes {depth : Int} (hdepth : 0 ≤ depth) (s : List Char) :
    Covered depth s
      ∨ ∃ a t, s = a ++ ']' :: t ∧ Covered depth a ∧ depth + surplus a = 0 := by
  induction s generalizing depth with
  | nil => exact .inl (Covered.nil_iff.mpr hdepth)
  | cons c s ih =>
    by_cases hpartner : c = ']' ∧ depth = 0
    · obtain ⟨rfl, rfl⟩ := hpartner
      exact .inr ⟨[], s, rfl, Covered.nil_iff.mpr hdepth, rfl⟩
    · have hstep : 0 ≤ depth + surplus [c] := by
        rcases surplus_cases c with ⟨-, hc⟩ | ⟨rfl, hc⟩ | ⟨-, -, hc⟩
        · omega
        · have hne : depth ≠ 0 := fun h => hpartner ⟨rfl, h⟩
          omega
        · omega
      rcases ih hstep with h | ⟨a, t, rfl, ha, hsurplus⟩
      · exact .inl (Covered.cons_iff.mpr ⟨hdepth, h⟩)
      · refine .inr ⟨c :: a, t, rfl, Covered.cons_iff.mpr ⟨hdepth, ha⟩, ?_⟩
        rw [surplus_cons, ← Int.add_assoc]
        exact hsurplus

/-! ## Balanced texts -/

/-- **Balanced**: each square bracket that closes in the text was opened in it, and none is
left open. -/
structure Balanced (s : List Char) : Prop where
  /-- No bracket closes that was not opened. -/
  covered : Covered 0 s
  /-- None is left open. -/
  settled : surplus s = 0

namespace Balanced

variable {a b : List Char}

theorem nil : Balanced [] := ⟨Covered.nil_iff.mpr (Int.le_refl 0), rfl⟩

theorem append (ha : Balanced a) (hb : Balanced b) : Balanced (a ++ b) where
  covered := ha.covered.append (by simpa [ha.settled] using hb.covered)
  settled := by rw [surplus_append, ha.settled, hb.settled, Int.add_zero]

/-- Square brackets may be put around a balanced text, and so may characters that do not
count. -/
theorem enclose {o c : Char} (ho : 0 ≤ surplus [o]) (hoc : surplus [o] + surplus [c] = 0)
    (ha : Balanced a) : Balanced (o :: (a ++ [c])) where
  covered := by
    refine Covered.cons_iff.mpr ⟨Int.le_refl 0, (ha.covered.mono (by omega)).append ?_⟩
    refine Covered.cons_iff.mpr ⟨?_, Covered.nil_iff.mpr ?_⟩ <;> rw [ha.settled] <;> omega
  settled := by
    rw [surplus_cons, surplus_append, ha.settled]
    omega

theorem singleton {c : Char} (h : surplus [c] = 0) : Balanced [c] where
  covered := Covered.cons_iff.mpr ⟨Int.le_refl 0, Covered.nil_iff.mpr (by omega)⟩
  settled := h

end Balanced

/-- **Nested texts are balanced.** -/
theorem Nested.balanced {a : List Char} (ha : Nested a) : Balanced a := by
  induction ha with
  | nil => exact .nil
  | @plain c t hc _ ih =>
    refine Balanced.append (.singleton (surplus_of_ne ?_ ?_)) ih
    all_goals
      rintro rfl
      exact absurd hc (by decide)
  | @group o c a t hoc _ _ iha iht =>
    rw [List.append_cons, ← List.cons_append]
    refine Balanced.append (iha.enclose ?_ ?_) iht
    all_goals
      rcases closer?_eq_some_iff.mp hoc with ⟨rfl, rfl⟩ | ⟨rfl, rfl⟩ | ⟨rfl, rfl⟩ <;> decide

end TestScaffold.Scan
