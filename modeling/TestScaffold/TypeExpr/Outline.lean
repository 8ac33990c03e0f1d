import TestScaffold.Text.Blank
/-!
# The outline of a type text

`Outline.read` goes once over the text of a type and takes it apart at depth
zero: the name, the raw texts between `<` and `>`, the array ranks, the nullable
mark, and what stands behind the last of these. Any text has an outline; the
texts between brackets are read as types in a second step.

The depth is shared by all bracket kinds, and a bracket that closes nothing
leaves depth zero. The name is everything in front of the first `<`, `[` or `?`
at depth zero.
-/

namespace TestScaffold.TypeExpr

/-- What has been read of a type text. -/
structure Outline where
  /-- How many brackets are open. -/
  depth : Nat := 0
  /-- The name, once a mark behind it has been met. -/
  name : Option (List Char) := none
  /-- What was read since the last mark. -/
  pending : List Char := []
  /-- The raw texts of the generic argument lists. -/
  arguments : List (List Char) := []
  /-- The array ranks, as their nullable marks. -/
  ranks : List Bool := []
  /-- Whether a nullable mark was met. -/
  nullable : Bool := false
  /-- Whether the last character ended an array rank, so that a `?` right
  behind it belongs to the rank. -/
  afterRank : Bool := false
deriving DecidableEq, Repr

namespace Outline

/-- Keep a character as part of the text since the last mark. -/
def keep (o : Outline) (c : Char) : Outline :=
  { o with pending := o.pending ++ [c] }

/-- Take the text since the last mark as the name, unless there is one. -/
def named (o : Outline) : Outline :=
  { o with name := some (o.name.getD (Text.trim o.pending)) }

/-- The outline behind the next character. -/
def step (outline : Outline) (c : Char) : Outline :=
  let o := { outline with afterRank := false }
  if c = '<' then
    if o.depth = 0 then { o.named with pending := [], depth := 1 }
    else { o.keep c with depth := o.depth + 1 }
  else if c = '>' then
    if o.depth ≤ 1 then
      { o with arguments := o.arguments ++ [o.pending], pending := [], depth := 0 }
    else { o.keep c with depth := o.depth - 1 }
  else if c = '[' then
    if o.depth = 0 then
      -- behind a name the bracket stays with the text that follows it
      if o.name.isNone then { o.named with pending := [], depth := 1 }
      else { o.keep c with depth := 1 }
    else { o.keep c with depth := o.depth + 1 }
  else if c = ']' then
    if o.depth ≤ 1 then
      { o with ranks := o.ranks ++ [false], pending := [], depth := 0, afterRank := true }
    else { o.keep c with depth := o.depth - 1 }
  else if c = '?' then
    if outline.afterRank then { o with ranks := o.ranks.dropLast ++ [true] }
    else if o.depth = 0 then { o.named with nullable := true, pending := [] }
    else o.keep c
  else if c = '(' then { o.keep c with depth := o.depth + 1 }
  else if c = ')' then { o.keep c with depth := o.depth - 1 }
  else o.keep c

/-- The outline of a text. -/
def read (text : List Char) : Outline :=
  text.foldl step {}

/-- The text that names the type: the name, or what stands behind the last mark
when there is no name or a blank one. -/
def nameText (o : Outline) : List Char :=
  match o.name with
  | none | some [] => Text.trim o.pending
  | some name => name

/-! ## The parts of an outline are parts of the text -/

/-- Every part of an outline fits into a text of length `n`, and an argument
list, which pays for its closing bracket, is shorter. -/
def Fits (n : Nat) (o : Outline) : Prop :=
  (∀ name ∈ o.name, name.length ≤ n) ∧ o.pending.length ≤ n
    ∧ ∀ a ∈ o.arguments, a.length < n

theorem Fits.named {n : Nat} {o : Outline} (h : o.Fits n) : o.named.Fits n := by
  refine ⟨?_, h.2.1, h.2.2⟩
  intro name hn
  simp only [Outline.named, Option.mem_def, Option.some.injEq] at hn
  subst hn
  cases hname : o.name with
  | none => exact Nat.le_trans (Text.length_trim_le _) h.2.1
  | some name => exact h.1 name hname

theorem Fits.step {n : Nat} {o : Outline} (h : o.Fits n) (c : Char) :
    (o.step c).Fits (n + 1) := by
  have hnamed := h.named
  obtain ⟨hname, hpending, harguments⟩ := h
  obtain ⟨nname, npending, narguments⟩ := hnamed
  simp only [Outline.named] at nname npending narguments
  have up : ∀ a ∈ o.arguments, a.length < n + 1 := fun a ha =>
    Nat.lt_succ_of_lt (harguments a ha)
  have upName : ∀ name ∈ o.name, name.length ≤ n + 1 := fun a ha =>
    Nat.le_succ_of_le (hname a ha)
  have upNamed : ∀ name ∈ some (o.name.getD (Text.trim o.pending)),
      name.length ≤ n + 1 := fun a ha => Nat.le_succ_of_le (nname a ha)
  have kept : (o.pending ++ [c]).length ≤ n + 1 := by simpa using hpending
  have upPending : o.pending.length ≤ n + 1 := Nat.le_succ_of_le hpending
  have closed : ∀ a ∈ o.arguments ++ [o.pending], a.length < n + 1 := by
    intro a ha
    rcases List.mem_append.mp ha with ha | ha
    · exact up a ha
    · rw [List.mem_singleton.mp ha]
      exact Nat.lt_succ_of_le hpending
  unfold Outline.step Outline.keep Outline.named
  dsimp only
  repeat' split
  all_goals
    first
    | exact ⟨upName, kept, up⟩
    | exact ⟨upNamed, Nat.zero_le _, up⟩
    | exact ⟨upName, Nat.zero_le _, closed⟩
    | exact ⟨upName, Nat.zero_le _, up⟩
    | exact ⟨upName, upPending, up⟩

theorem fits_foldl (text : List Char) :
    ∀ {n : Nat} {o : Outline}, o.Fits n → (text.foldl step o).Fits (n + text.length) := by
  induction text with
  | nil => exact fun h => h
  | cons c text ih =>
    intro n o h
    have := ih (h.step c)
    simpa [Nat.add_assoc, Nat.add_comm 1] using this

theorem fits_read (text : List Char) : (read text).Fits text.length := by
  have h : ({} : Outline).Fits 0 :=
    ⟨fun _ h => by simp at h, Nat.le_refl 0, fun _ h => by simp at h⟩
  have := fits_foldl text h
  rwa [Nat.zero_add] at this

/-- **An argument list is shorter than its text.** -/
theorem length_of_mem_arguments {text a : List Char}
    (h : a ∈ (read text).arguments) : a.length < text.length :=
  (fits_read text).2.2 a h

/-- **The name is no longer than its text.** -/
theorem length_nameText_le (text : List Char) :
    (read text).nameText.length ≤ text.length := by
  obtain ⟨hname, hpending, -⟩ := fits_read text
  have fallback := Nat.le_trans (Text.length_trim_le _) hpending
  unfold nameText
  split
  · exact fallback
  · exact fallback
  · next name _ hn => exact hname name hn

end Outline

end TestScaffold.TypeExpr
