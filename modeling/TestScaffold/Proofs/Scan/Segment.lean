import TestScaffold.Proofs.Scan.Nested
import TestScaffold.Proofs.Text.Search
import TestScaffold.Scan.TopLevel
/-!
# Segments of a declaration

A declaration is written in segments with a delimiter between them, and read by
splitting at the delimiters of the top level. The two fit together when the
reader is **settled** at the end of every segment – outside literals, at depth
zero – and has met no delimiter on the way. `Segment` says that of a reader
started in front of the segment, which is enough: a delimiter behind a settled
reader starts it afresh (`Reader.Settled.step_separator`), so what a segment
holds never reaches the next one.

`split_intercalate` is the resulting law: splitting joined segments gives the
segments back. `Calm` texts are segments from any settled reader; they can be
put together from plain characters and from groups with a properly nested text
inside (`Calm.append`, `Calm.of_plain`, `Calm.group`), as types are.
-/

namespace TestScaffold.Scan

/-- Whether a character opens a literal. -/
def isQuote (c : Char) : Bool :=
  c == '"' || c == '\''

/-- No bracket opens a literal. -/
theorem isQuote_of_closer? {o c : Char} (h : closer? o = some c) :
    isQuote o = false ∧ isQuote c = false := by
  rcases closer?_eq_some_iff.mp h with ⟨rfl, rfl⟩ | ⟨rfl, rfl⟩ | ⟨rfl, rfl⟩ <;> decide

/-! ## The reader -/

namespace Reader

@[simp] theorem run_nil (r : Reader) : r.run [] = r := rfl

@[simp] theorem run_cons (r : Reader) (c : Char) (s : List Char) :
    r.run (c :: s) = (r.step c).run s := rfl

@[simp] theorem run_append (r : Reader) (a b : List Char) :
    r.run (a ++ b) = (r.run a).run b :=
  List.foldl_append

theorem marks_append (r : Reader) (a b : List Char) :
    r.marks (a ++ b) = r.marks a ++ (r.run a).marks b := by
  induction a generalizing r with
  | nil => rfl
  | cons c a ih => rw [List.cons_append, marks_cons, ih, marks_cons, run_cons, List.cons_append]

/-- Outside every literal there is one way on. -/
theorem step_of_isOutside {place : Literal} (h : place.isOutside = true) (c : Char) :
    place.step c = place.stepOutside c := by
  cases place with
  | code => rfl
  | sigil => rfl
  | closedVerbatim => rfl
  | quoted quote => exact Bool.noConfusion h
  | escaped quote => exact Bool.noConfusion h
  | verbatim => exact Bool.noConfusion h

/-- Only a quote leads from outside every literal into one. -/
theorem isOutside_step {place : Literal} {c : Char} (h : place.isOutside = true)
    (hc : isQuote c = false) : (place.step c).isOutside = true := by
  obtain ⟨hdouble, hsingle⟩ := Bool.or_eq_false_iff.mp hc
  have hd : c ≠ '"' := by simpa using hdouble
  have hs : c ≠ '\'' := by simpa using hsingle
  rw [step_of_isOutside h, Literal.stepOutside, if_neg hd, if_neg hs]
  split
  · rfl
  · split <;> rfl

/-- Inside brackets nothing stands at the top level. -/
theorem atTop_eq_false {r : Reader} (hdepth : 0 < r.depth) (c : Char) : r.atTop c = false := by
  rw [atTop, beq_false_of_ne (Nat.pos_iff_ne_zero.mp hdepth), Bool.and_false, Bool.false_and]

section Depth

variable {r : Reader} {c : Char} (hout : r.literal.isOutside = true)
include hout

theorem depth_step_plain (hc : isBracket c = false) : (r.step c).depth = r.depth := by
  obtain ⟨hopen, hclose⟩ := isBracket_eq_false_iff.mp hc
  rw [step, hout, if_pos rfl, depthAfter, hopen, hclose]
  rfl

theorem depth_step_opening (hc : isOpening c = true) : (r.step c).depth = r.depth + 1 := by
  rw [step, hout, if_pos rfl, depthAfter, hc, if_pos rfl]

theorem depth_step_closing (hc : isClosing c = true) : (r.step c).depth = r.depth - 1 := by
  rw [step, hout, if_pos rfl, depthAfter, isOpening_eq_false_of_isClosing hc, hc]
  rfl

end Depth

/-- **A settled reader** stands outside every literal and every bracket. -/
def Settled (r : Reader) : Prop :=
  r.literal.isOutside = true ∧ r.depth = 0

instance (r : Reader) : Decidable r.Settled :=
  inferInstanceAs (Decidable (_ ∧ _))

theorem settled_start : start.Settled := by decide

end Reader

/-- A character that a settled reader forgets what it has read at: no bracket, no
quote and no part of the mark of a verbatim literal. -/
def IsSeparator (c : Char) : Prop :=
  isBracket c = false ∧ isQuote c = false ∧ c ≠ '@' ∧ c ≠ '$'

instance : DecidablePred IsSeparator :=
  fun _ => inferInstanceAs (Decidable (_ ∧ _))

namespace Reader.Settled

variable {r : Reader}

/-- **A separator starts a settled reader afresh.** -/
theorem step_separator (h : r.Settled) {c : Char} (hc : IsSeparator c) :
    r.step c = start := by
  obtain ⟨hbracket, hquote, hat, hdollar⟩ := hc
  obtain ⟨hopen, hclose⟩ := isBracket_eq_false_iff.mp hbracket
  obtain ⟨hdouble, hsingle⟩ := Bool.or_eq_false_iff.mp hquote
  obtain ⟨place, depth⟩ := r
  obtain ⟨hout, hdepth⟩ := h
  dsimp only at hout hdepth
  rw [Reader.step, start, hout, if_pos rfl, hdepth, depthAfter, hopen, hclose,
    step_of_isOutside hout, Literal.stepOutside, if_neg (by simpa using hdouble),
    if_neg (by simpa using hsingle), if_neg hat, if_neg (by simp [hdollar])]
  rfl

/-- What is neither bracket nor quote stands at the top level of a settled
reader. -/
theorem atTop_plain (h : r.Settled) {c : Char} (hb : isBracket c = false)
    (hq : isQuote c = false) : r.atTop c = true := by
  obtain ⟨hopen, hclose⟩ := isBracket_eq_false_iff.mp hb
  obtain ⟨hdouble, hsingle⟩ := Bool.or_eq_false_iff.mp hq
  rw [Reader.atTop, h.1, h.2, hopen, hclose, hdouble, hsingle]
  rfl

/-- … and leaves the reader settled. -/
theorem step_plain (h : r.Settled) {c : Char} (hb : isBracket c = false)
    (hq : isQuote c = false) : (r.step c).Settled := by
  refine ⟨isOutside_step h.1 hq, ?_⟩
  rw [depth_step_plain h.1 hb, h.2]

theorem run_plain (h : r.Settled) {s : List Char}
    (hs : ∀ c ∈ s, isBracket c = false ∧ isQuote c = false) : (r.run s).Settled := by
  induction s generalizing r with
  | nil => exact h
  | cons c s ih =>
    obtain ⟨hb, hq⟩ := hs c List.mem_cons_self
    exact ih (h.step_plain hb hq) fun d hd => hs d (List.mem_cons_of_mem c hd)

end Reader.Settled

/-! ## Inside brackets -/

/-- **A reader inside brackets passes a nested text without quotes** and meets
nothing at the top level in it. -/
theorem Nested.run_inside {s : List Char} (h : Nested s)
    (hq : ∀ c ∈ s, isQuote c = false) {r : Reader} (hout : r.literal.isOutside = true)
    (hdepth : 0 < r.depth) :
    (r.run s).literal.isOutside = true ∧ (r.run s).depth = r.depth
      ∧ ∀ m ∈ r.marks s, m.2 = false := by
  induction h generalizing r with
  | nil => exact ⟨hout, rfl, by simp⟩
  | @plain c s hc _ ih =>
    have hd : (r.step c).depth = r.depth := Reader.depth_step_plain hout hc
    obtain ⟨h₁, h₂, h₃⟩ := ih (fun d hd => hq d (List.mem_cons_of_mem c hd))
      (r := r.step c) (Reader.isOutside_step hout (hq c List.mem_cons_self))
      (by rw [hd]; exact hdepth)
    refine ⟨h₁, by rw [Reader.run_cons, h₂, hd], ?_⟩
    rw [Reader.marks_cons, List.forall_mem_cons]
    exact ⟨Reader.atTop_eq_false hdepth c, h₃⟩
  | @group o c a s hoc _ _ iha ihs =>
    have hqo := hq o List.mem_cons_self
    have hqa : ∀ d ∈ a, isQuote d = false := fun d hd => hq d (by simp [hd])
    have hqc := hq c (by simp)
    have hqs : ∀ d ∈ s, isQuote d = false := fun d hd => hq d (by simp [hd])
    -- the closing bracket takes the level back that the opening one adds
    have hd : (r.step o).depth = r.depth + 1 :=
      Reader.depth_step_opening hout (isOpening_of_closer? hoc)
    obtain ⟨ha₁, ha₂, ha₃⟩ := iha hqa (r := r.step o) (Reader.isOutside_step hout hqo)
      (by omega)
    have hd' : (((r.step o).run a).step c).depth = r.depth := by
      rw [Reader.depth_step_closing ha₁ (isClosing_of_closer? hoc), ha₂, hd, Nat.add_sub_cancel]
    obtain ⟨hs₁, hs₂, hs₃⟩ := ihs hqs (r := ((r.step o).run a).step c)
      (Reader.isOutside_step ha₁ hqc) (by rw [hd']; exact hdepth)
    rw [Reader.run_cons, Reader.run_append, Reader.run_cons, Reader.marks_cons,
      Reader.marks_append, Reader.marks_cons]
    refine ⟨hs₁, by rw [hs₂, hd'], ?_⟩
    rw [List.forall_mem_cons, List.forall_mem_append, List.forall_mem_cons]
    exact ⟨Reader.atTop_eq_false hdepth o, ha₃, Reader.atTop_eq_false (by omega) c, hs₃⟩

/-! ## Segments -/

/-- A reader passes a text when it is settled behind it and has not met the
delimiter at the top level. -/
structure Passes (delimiter : Char) (r : Reader) (s : List Char) : Prop where
  /-- Behind the text the reader is settled. -/
  settled : (r.run s).Settled
  /-- No delimiter stands at the top level. -/
  unmarked : ∀ m ∈ r.marks s, isMark delimiter m = false

/-- **A segment**: a text that a reader started in front of it passes. -/
def Segment (delimiter : Char) (s : List Char) : Prop :=
  Passes delimiter Reader.start s

instance (delimiter : Char) (s : List Char) : Decidable (Segment delimiter s) :=
  decidable_of_iff ((Reader.start.run s).Settled
      ∧ ∀ m ∈ Reader.start.marks s, isMark delimiter m = false)
    ⟨fun h => ⟨h.1, h.2⟩, fun h => ⟨h.settled, h.unmarked⟩⟩

/-- **A calm text** is passed by every settled reader. -/
def Calm (delimiter : Char) (s : List Char) : Prop :=
  ∀ r : Reader, r.Settled → Passes delimiter r s

theorem Passes.append {d : Char} {r : Reader} {a b : List Char} (ha : Passes d r a)
    (hb : Passes d (r.run a) b) : Passes d r (a ++ b) where
  settled := by rw [Reader.run_append]; exact hb.settled
  unmarked := by
    rw [Reader.marks_append, List.forall_mem_append]
    exact ⟨ha.unmarked, hb.unmarked⟩

namespace Calm

variable {d : Char}

theorem segment {s : List Char} (h : Calm d s) : Segment d s :=
  h _ Reader.settled_start

/-- **Calm texts may be put side by side.** -/
theorem append {a b : List Char} (ha : Calm d a) (hb : Calm d b) : Calm d (a ++ b) :=
  fun r hr => (ha r hr).append (hb _ (ha r hr).settled)

/-- Plain characters other than the delimiter are calm. -/
theorem of_plain {s : List Char}
    (h : ∀ c ∈ s, isBracket c = false ∧ isQuote c = false ∧ c ≠ d) : Calm d s := by
  induction s with
  | nil => exact fun r hr => ⟨hr, by simp⟩
  | cons c s ih =>
    intro r hr
    obtain ⟨hb, hq, hd⟩ := h c List.mem_cons_self
    have hrest := ih (fun e he => h e (List.mem_cons_of_mem c he)) (r.step c)
      (hr.step_plain hb hq)
    refine ⟨hrest.settled, ?_⟩
    rw [Reader.marks_cons, List.forall_mem_cons]
    exact ⟨by simp [isMark, hd], hrest.unmarked⟩

/-- **A group is calm** when the text inside is properly nested and free of
quotes. -/
theorem group {o c : Char} {a : List Char} (hoc : closer? o = some c) (ha : Nested a)
    (hq : ∀ c ∈ a, isQuote c = false) : Calm d (o :: (a ++ [c])) := by
  intro r hr
  obtain ⟨hqo, hqc⟩ := isQuote_of_closer? hoc
  have ho := isOpening_of_closer? hoc
  have hc := isClosing_of_closer? hoc
  have hd : (r.step o).depth = 1 := by rw [Reader.depth_step_opening hr.1 ho, hr.2]
  obtain ⟨h₁, h₂, h₃⟩ := ha.run_inside hq (r := r.step o)
    (Reader.isOutside_step hr.1 hqo) (by omega)
  have hmo : r.atTop o = false := by simp [Reader.atTop, ho]
  have hmc : ((r.step o).run a).atTop c = false := by simp [Reader.atTop, hc]
  refine ⟨?_, ?_⟩
  · rw [Reader.run_cons, Reader.run_append, Reader.run_cons, Reader.run_nil]
    refine ⟨Reader.isOutside_step h₁ hqc, ?_⟩
    rw [Reader.depth_step_closing h₁ hc, h₂, hd]
  · rw [Reader.marks_cons, Reader.marks_append, Reader.marks_cons, Reader.marks_nil,
      List.forall_mem_cons, List.forall_mem_append, List.forall_mem_singleton]
    refine ⟨by simp [isMark, hmo], fun m hm => ?_, by simp [isMark, hmc]⟩
    simp [isMark, h₃ m hm]

end Calm

/-- **A quiet text** keeps its delimiters inside brackets: it is properly nested,
free of quotes and calm. -/
structure Quiet (delimiter : Char) (s : List Char) : Prop where
  /-- Every bracket is closed by one of its own kind. -/
  nested : Nested s
  /-- No literal begins in the text. -/
  unquoted : ∀ c ∈ s, isQuote c = false
  /-- No settled reader meets the delimiter. -/
  calm : Calm delimiter s

namespace Quiet

variable {d : Char}

theorem append {a b : List Char} (ha : Quiet d a) (hb : Quiet d b) :
    Quiet d (a ++ b) where
  nested := ha.nested.append hb.nested
  unquoted := List.forall_mem_append.mpr ⟨ha.unquoted, hb.unquoted⟩
  calm := ha.calm.append hb.calm

/-- Plain characters other than the delimiter are quiet. -/
theorem of_plain {s : List Char}
    (h : ∀ c ∈ s, isBracket c = false ∧ isQuote c = false ∧ c ≠ d) : Quiet d s where
  nested := Nested.of_plain fun c hc => (h c hc).1
  unquoted c hc := (h c hc).2.1
  calm := Calm.of_plain h

/-- **A group is quiet**, whatever its delimiters. -/
theorem group {o c : Char} {a : List Char} (hoc : closer? o = some c) (ha : Nested a)
    (hq : ∀ c ∈ a, isQuote c = false) : Quiet d (o :: (a ++ [c])) where
  nested := .enclose hoc ha
  unquoted := by
    rw [List.forall_mem_cons, List.forall_mem_append, List.forall_mem_singleton]
    exact ⟨isQuote_of_closer? hoc |>.1, hq, isQuote_of_closer? hoc |>.2⟩
  calm := .group hoc ha hq

theorem segment {s : List Char} (h : Quiet d s) : Segment d s :=
  h.calm.segment

/-- **In front of a delimiter of a quiet text there is a bracket.** -/
theorem exists_bracket {a b : List Char} (hd : isBracket d = false)
    (hq : isQuote d = false) (h : Quiet d (a ++ d :: b)) : ∃ c ∈ a, isBracket c = true := by
  by_contra hno
  have hplain : ∀ c ∈ a, isBracket c = false ∧ isQuote c = false := fun c hc =>
    ⟨Bool.eq_false_iff.mpr fun hb => hno ⟨c, hc, hb⟩,
      h.unquoted c (List.mem_append_left _ hc)⟩
  -- behind plain characters the reader is still settled and meets the delimiter
  have hr := Reader.settled_start.run_plain hplain
  have hunmarked := h.segment.unmarked (d, true) (by
    rw [Reader.marks_append, Reader.marks_cons, hr.atTop_plain hd hq]
    simp)
  simp [isMark] at hunmarked

end Quiet

namespace Segment

variable {d : Char}

/-- **Segments may be joined by another separator.** -/
theorem join {a b : List Char} {x : Char} (ha : Segment d a) (hx : IsSeparator x)
    (hxd : x ≠ d) (hb : Segment d b) : Segment d (a ++ x :: b) := by
  -- the separator starts the reader afresh, just as in front of `b` alone
  refine ha.append ⟨?_, ?_⟩
  · rw [Reader.run_cons, ha.settled.step_separator hx]
    exact hb.settled
  · rw [Reader.marks_cons, List.forall_mem_cons, ha.settled.step_separator hx]
    exact ⟨by simp [isMark, hxd], hb.unmarked⟩

theorem nil : Segment d [] :=
  ⟨Reader.settled_start, by simp⟩

end Segment

/-! ## Splitting -/

section Splitting

variable {d : Char}

/-- No character of a segment is a delimiter. -/
theorem forall_marks {a : List Char} (ha : Segment d a) :
    ∀ m ∈ marks a, isMark d m = false :=
  ha.unmarked

/-- What a settled reader has read does not matter behind a delimiter. -/
theorem marks_join (hd : IsSeparator d) {a : List Char}
    (ha : (Reader.start.run a).Settled) (b : List Char) :
    marks (a ++ d :: b) = marks a ++ (d, true) :: marks b := by
  unfold marks
  rw [Reader.marks_append, Reader.marks_cons, ha.step_separator hd,
    ha.atTop_plain hd.1 hd.2.1]

theorem map_fst_marks (s : List Char) : (marks s).map Prod.fst = s :=
  Reader.map_fst_marks _ s

theorem pieces_join (hd : IsSeparator d) {a : List Char} (ha : Segment d a)
    (b : List Char) : pieces d (a ++ d :: b) = a :: pieces d b := by
  unfold pieces
  rw [marks_join hd ha.settled, Text.splitWhere_append_cons _ _ (by simp [isMark]),
    Text.splitWhere_of_none (forall_marks ha), List.map_append,
    List.map_singleton, map_fst_marks]
  rfl

/-- A text without a delimiter at the top level is its own only piece. -/
theorem pieces_of_unmarked {a : List Char} (ha : ∀ m ∈ marks a, isMark d m = false) :
    pieces d a = [a] := by
  unfold pieces
  rw [Text.splitWhere_of_none ha, List.map_singleton, map_fst_marks]

theorem pieces_segment {a : List Char} (ha : Segment d a) : pieces d a = [a] :=
  pieces_of_unmarked (forall_marks ha)

theorem split_join (hd : IsSeparator d) {a : List Char} (ha : Segment d a)
    (b : List Char) : split d (a ++ d :: b) = Text.trim a :: split d b := by
  rw [split, pieces_join hd ha, List.map_cons, split]

theorem split_segment {a : List Char} (ha : Segment d a) : split d a = [Text.trim a] := by
  rw [split, pieces_segment ha, List.map_singleton]

/-- **Splitting joined segments gives the segments back**, trimmed. -/
theorem split_intercalate (hd : IsSeparator d) {xs : List (List Char)} (hne : xs ≠ [])
    (h : ∀ x ∈ xs, Segment d x) :
    split d (List.intercalate [d] xs) = xs.map Text.trim := by
  induction xs with
  | nil => exact absurd rfl hne
  | cons x xs ih =>
    have hx := h x List.mem_cons_self
    cases xs with
    | nil => rw [List.intercalate_singleton, split_segment hx, List.map_singleton]
    | cons y ys =>
      rw [List.intercalate_cons_cons, List.append_assoc, List.singleton_append,
        split_join hd hx, ih (by simp) fun z hz => h z (List.mem_cons_of_mem x hz)]
      rfl

/-- A space in front of a text is trimmed away with the first piece. -/
theorem split_cons_space (hd : d ≠ ' ') (s : List Char) : split d (' ' :: s) = split d s := by
  have hmarks : marks (' ' :: s) = (' ', true) :: marks s := rfl
  have hmark : isMark d (' ', true) = false := by simp [isMark, hd.symm]
  unfold split pieces
  rw [hmarks, Text.splitWhere, hmark, if_neg Bool.false_ne_true]
  obtain ⟨w, ws, hw⟩ :=
    List.exists_cons_of_ne_nil (Text.splitWhere_ne_nil (isMark d) (marks s))
  -- the space lengthens the first piece `w`
  have htrim : Text.trim ([' '] ++ w.map Prod.fst) = Text.trim (w.map Prod.fst) :=
    Text.trim_blank_append rfl
  rw [hw, List.modifyHead_cons, List.map_cons, List.map_cons, List.map_cons, List.map_cons,
    List.map_cons, ← htrim]
  rfl

/-- **Splitting a list with a space behind each delimiter** gives its items,
trimmed. -/
theorem split_intercalate_space (hd : IsSeparator d) (hds : d ≠ ' ') {xs : List (List Char)}
    (hne : xs ≠ []) (h : ∀ x ∈ xs, Segment d x) :
    split d (List.intercalate [d, ' '] xs) = xs.map Text.trim := by
  induction xs with
  | nil => exact absurd rfl hne
  | cons x xs ih =>
    have hx := h x List.mem_cons_self
    cases xs with
    | nil => rw [List.intercalate_singleton, split_segment hx, List.map_singleton]
    | cons y ys =>
      rw [List.intercalate_cons_cons, List.append_assoc]
      show split d (x ++ d :: (' ' :: List.intercalate [d, ' '] (y :: ys))) = _
      rw [split_join hd hx, split_cons_space hds,
        ih (by simp) fun z hz => h z (List.mem_cons_of_mem x hz)]
      rfl

end Splitting

/-! ## Cutting -/

section Cutting

variable {d : Char}

/-- **The first cut falls behind a segment.** -/
theorem cutFirst?_join (hd : IsSeparator d) {a : List Char} (ha : Segment d a)
    (b : List Char) : cutFirst? d (a ++ d :: b) = some (a, b) := by
  unfold cutFirst?
  rw [marks_join hd ha.settled,
    Text.cutWhere?_append_cons (forall_marks ha) (by simp [isMark])]
  simp only [Option.map_some, unmark, map_fst_marks]

theorem cutFirst?_segment {a : List Char} (ha : Segment d a) : cutFirst? d a = none := by
  unfold cutFirst?
  rw [Text.cutWhere?_eq_none (forall_marks ha)]
  rfl

/-- The first cut never falls into a segment in front. -/
theorem length_le_of_cutFirst? {a s before after : List Char} (ha : Segment d a)
    (h : cutFirst? d (a ++ s) = some (before, after)) : a.length ≤ before.length := by
  unfold cutFirst? marks at h
  rw [Reader.marks_append, Text.cutWhere?_append ha.unmarked, Option.map_map] at h
  obtain ⟨⟨x, y⟩, -, hxy⟩ := Option.map_eq_some_iff.mp h
  simp only [Function.comp_apply, unmark, Prod.mk.injEq] at hxy
  rw [← hxy.1, List.map_append, Reader.map_fst_marks, List.length_append]
  omega

/-- **The last cut falls in front of a segment.** -/
theorem cutLast?_join (hd : IsSeparator d) {a b : List Char}
    (ha : (Reader.start.run a).Settled) (hb : Segment d b) :
    cutLast? d (a ++ d :: b) = some (a, b) := by
  unfold cutLast?
  rw [marks_join hd ha,
    Text.cutLastWhere?_append_cons (by simp [isMark]) (forall_marks hb)]
  simp only [Option.map_some, unmark, map_fst_marks]

theorem cutLast?_segment {a : List Char} (ha : Segment d a) : cutLast? d a = none := by
  unfold cutLast?
  rw [Text.cutLastWhere?_eq_none (forall_marks ha)]
  rfl

end Cutting

end TestScaffold.Scan
