import Mathlib.Data.List.Induction
import Mathlib.Data.List.Nodup
import TestScaffold.Model.Grouping
/-!
# Groups in closed form

`groupByKey` builds its groups one element after another. What comes out is said here
without that history (`groupByKey_eq`): there is one group for each key, the keys stand
in the order in which they first appear, and a group holds the elements of its key in
the order of the list.

The closed form does not say that no element is lost. That is best seen along the way: a
further element is put into one of the groups, whichever that is
(`perm_insertIntoGroup`), so the groups hold the elements of the list
(`perm_groupByKey`).
-/

namespace TestScaffold

variable {α κ : Type} [DecidableEq κ]

/-- A list behind its last element, without repetitions: the element is new or not. -/
theorem eraseDups_concat (keys : List κ) (key : κ) :
    (keys ++ [key]).eraseDups
      = if key ∈ keys then keys.eraseDups else keys.eraseDups ++ [key] := by
  rw [List.eraseDups_append]
  by_cases h : key ∈ keys
  · simp [List.removeAll, h]
  · simp [List.removeAll, h, List.eraseDups_cons]

theorem nodup_eraseDups (keys : List κ) : keys.eraseDups.Nodup := by
  induction keys using List.reverseRecOn with
  | nil => simp
  | append_singleton keys key ih =>
    rw [eraseDups_concat]
    split
    · exact ih
    · rename_i hnew
      rw [List.nodup_append_comm, List.singleton_append, List.nodup_cons]
      exact ⟨mt List.mem_eraseDups.mp hnew, ih⟩

/-- Without repetitions, a list is in the order of first appearance. -/
theorem pairwise_idxOf_eraseDups (keys : List κ) :
    keys.eraseDups.Pairwise fun a b => keys.idxOf a < keys.idxOf b := by
  induction keys using List.reverseRecOn with
  | nil => simp
  | append_singleton keys key ih =>
    have hkeys : ∀ a ∈ keys.eraseDups, (keys ++ [key]).idxOf a = keys.idxOf a := fun a ha =>
      List.idxOf_append_of_mem (List.mem_eraseDups.mp ha)
    have hold : keys.eraseDups.Pairwise
        fun a b => (keys ++ [key]).idxOf a < (keys ++ [key]).idxOf b :=
      ih.imp_of_mem fun ha hb h => by rwa [hkeys _ ha, hkeys _ hb]
    rw [eraseDups_concat]
    split
    · exact hold
    · rename_i hnew
      refine List.pairwise_append.mpr ⟨hold, List.pairwise_singleton _ _, fun a ha b hb => ?_⟩
      rw [List.mem_singleton.mp hb, hkeys a ha, List.idxOf_append_of_notMem hnew]
      exact Nat.lt_of_lt_of_le (List.idxOf_lt_length_of_mem (List.mem_eraseDups.mp ha))
        (Nat.le_add_right _ _)

/-! ## One element more -/

/-- An element whose key has a group goes behind the members of that group. -/
theorem insertIntoGroup_of_mem {keys : List κ} (hnodup : keys.Nodup) {key : κ}
    (hmem : key ∈ keys) (a : α) (members : κ → List α) :
    insertIntoGroup key a (keys.map fun k => (k, members k))
      = keys.map fun k => (k, if k = key then members k ++ [a] else members k) := by
  induction keys with
  | nil => simp at hmem
  | cons k keys ih =>
    obtain ⟨hk, hnodup⟩ := List.nodup_cons.mp hnodup
    rw [List.map_cons, List.map_cons, insertIntoGroup]
    by_cases heq : k = key
    · rw [if_pos heq, if_pos heq]
      have hrest : ∀ k' ∈ keys, k' ≠ key := fun k' hk' h => hk (heq ▸ h ▸ hk')
      exact congrArg _ (List.map_congr_left fun k' hk' => by rw [if_neg (hrest k' hk')])
    · rw [if_neg heq, if_neg heq,
        ih hnodup ((List.mem_cons.mp hmem).resolve_left (Ne.symm heq))]

/-- An element whose key has no group gets one behind the others. -/
theorem insertIntoGroup_of_notMem {key : κ} (a : α) :
    ∀ {groups : List (κ × List α)}, key ∉ groups.map Prod.fst →
      insertIntoGroup key a groups = groups ++ [(key, [a])]
  | [], _ => rfl
  | (k, members) :: groups, h => by
    rw [List.map_cons, List.mem_cons, not_or] at h
    rw [insertIntoGroup, if_neg (Ne.symm h.1), insertIntoGroup_of_notMem a h.2,
      List.cons_append]

/-- An element more is one member more, of whichever group. -/
theorem perm_insertIntoGroup (key : κ) (a : α) (groups : List (κ × List α)) :
    ((insertIntoGroup key a groups).flatMap Prod.snd).Perm (a :: groups.flatMap Prod.snd) := by
  induction groups with
  | nil => exact .refl _
  | cons group groups ih =>
    obtain ⟨k, members⟩ := group
    rw [insertIntoGroup, List.flatMap_cons]
    split
    · rw [List.flatMap_cons, List.append_assoc]
      exact List.perm_middle
    · rw [List.flatMap_cons]
      exact (ih.append_left members).trans List.perm_middle

/-! ## The groups of a list -/

/-- **No element is lost and none is doubled**: together the groups hold the elements of
the list. -/
theorem perm_groupByKey (key : α → κ) (l : List α) :
    ((groupByKey key l).flatMap Prod.snd).Perm l := by
  induction l using List.reverseRecOn with
  | nil => exact .refl _
  | append_singleton l a ih =>
    rw [groupByKey, List.foldl_append, List.foldl_cons, List.foldl_nil, ← groupByKey]
    exact ((perm_insertIntoGroup (key a) a _).trans (ih.cons a)).trans
      (List.perm_append_singleton a l).symm

/-- **The groups of a list**: one for each key in the order of first appearance, holding
the elements of that key in the order of the list. -/
theorem groupByKey_eq (key : α → κ) (l : List α) :
    groupByKey key l
      = (l.map key).eraseDups.map fun k => (k, l.filter fun a => key a = k) := by
  induction l using List.reverseRecOn with
  | nil => rfl
  | append_singleton l a ih =>
    rw [groupByKey, List.foldl_append, List.foldl_cons, List.foldl_nil, ← groupByKey, ih,
      List.map_append, List.map_singleton, eraseDups_concat]
    by_cases hmem : key a ∈ l.map key
    · rw [if_pos hmem,
        insertIntoGroup_of_mem (nodup_eraseDups _) (List.mem_eraseDups.mpr hmem)]
      refine List.map_congr_left fun k _ => ?_
      by_cases hk : k = key a
      · subst hk
        simp
      · simp [hk, Ne.symm hk]
    · have hkeys : key a ∉ ((l.map key).eraseDups.map fun k =>
          (k, l.filter fun a => key a = k)).map Prod.fst := by
        simpa [Function.comp_def] using hmem
      rw [if_neg hmem, insertIntoGroup_of_notMem a hkeys, List.map_append]
      congr 1
      · refine List.map_congr_left fun k hk => ?_
        have hne : key a ≠ k := fun h => hmem (h ▸ List.mem_eraseDups.mp hk)
        simp [hne]
      · have hnone : l.filter (fun b => key b = key a) = [] :=
          List.filter_eq_nil_iff.mpr fun b hb h =>
            hmem (of_decide_eq_true h ▸ List.mem_map_of_mem hb)
        simp [hnone]

end TestScaffold
