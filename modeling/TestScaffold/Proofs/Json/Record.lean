import Mathlib.Data.List.Nodup
import TestScaffold.Json.Record
import TestScaffold.Proofs.Json.Printed
/-!
# Records are read back

What is written for a structure is read as that structure when the budget allows for the
containers in it: that is what `Restores` says, for the value of any type. Elements that
are restored make lists that are (`restores_list`), and fields that are restored make
records.

A record is seen as a list of *slots*, one for each field in order, with the value of the
field or nothing where the field is left out. `Fits` says of slots that their names are
distinct and their values within a budget; the fields of such a record are read one by one
(`Fits.required`, `Fits.defaulted`, `Fits.optional`, `Fits.list`), each by what restores
its own value.
-/

namespace TestScaffold.Json

/-! ## Nesting -/

mutual
/-- How many containers stand inside one another in a value, itself included. -/
def nesting : Json → Nat
  | array items => itemsNesting items + 1
  | object members => membersNesting members + 1
  | _ => 0
/-- The deepest nesting of some items. -/
def itemsNesting : List Json → Nat
  | [] => 0
  | item :: items => max (nesting item) (itemsNesting items)
/-- The deepest nesting of some members. -/
def membersNesting : List (Option String × Json) → Nat
  | [] => 0
  | (_, value) :: members => max (nesting value) (membersNesting members)
end

theorem itemsNesting_le_iff {items : List Json} {n : Nat} :
    itemsNesting items ≤ n ↔ ∀ item ∈ items, item.nesting ≤ n := by
  induction items with
  | nil => simp [itemsNesting]
  | cons item items ih => rw [itemsNesting, Nat.max_le, ih, List.forall_mem_cons]

theorem membersNesting_le_iff {members : List (Option String × Json)} {n : Nat} :
    membersNesting members ≤ n ↔ ∀ member ∈ members, member.2.nesting ≤ n := by
  induction members with
  | nil => simp [membersNesting]
  | cons member members ih => rw [membersNesting, Nat.max_le, ih, List.forall_mem_cons]

/-- An array is one level deeper than its items. -/
theorem nesting_array_le_iff {items : List Json} {n : Nat} :
    (array items).nesting ≤ n + 1 ↔ ∀ item ∈ items, item.nesting ≤ n := by
  rw [nesting, Nat.add_le_add_iff_right, itemsNesting_le_iff]

/-- A record is one level deeper than its fields. -/
theorem nesting_record_le_iff {members : List (String × Json)} {n : Nat} :
    (record members).nesting ≤ n + 1 ↔ ∀ member ∈ members, member.2.nesting ≤ n := by
  rw [record, nesting, Nat.add_le_add_iff_right, membersNesting_le_iff, List.forall_mem_map]

/-! ## Restoring values -/

/-- **What is written for a value is read as that value**, within the budget that its
containers take. -/
def Restores {α : Type} (read : Nat → Json → Option α) (x : α) (json : Json) : Prop :=
  ∀ budget, json.nesting ≤ budget → read budget json = some x

variable {α : Type} {read : Nat → Json → Option α} {write : α → Json}

theorem restores_text (value : String) : Restores (fun _ => text?) value (.text value) :=
  fun _ _ => rfl

theorem restores_bool (value : Bool) : Restores (fun _ => bool?) value (.bool value) :=
  fun _ _ => rfl

theorem restores_word (value : UInt32) :
    Restores (fun _ => word?) value (.natural value.toNat) := by
  intro budget _
  show (if value.toNat < UInt32.size then some (UInt32.ofNat value.toNat) else none) = _
  rw [if_pos value.toNat_lt_size, UInt32.ofNat_toNat]

/-- Reading every element gives the list back. -/
theorem mapM_map_of_forall {β : Type} {read : β → Option α} {write : α → β} {xs : List α}
    (h : ∀ x ∈ xs, read (write x) = some x) : (xs.map write).mapM read = some xs := by
  induction xs with
  | nil => rfl
  | cons x xs ih =>
    rw [List.map_cons, List.mapM_cons, h x (List.mem_cons_self ..),
      ih fun y hy => h y (List.mem_cons_of_mem _ hy)]
    rfl

/-- **A list is restored when its elements are.** -/
theorem restores_list {xs : List α} (h : ∀ x ∈ xs, Restores read x (write x)) :
    Restores (list? read) xs (.array (xs.map write)) := by
  intro budget hbudget
  cases budget with
  | zero => simp [nesting] at hbudget
  | succ budget =>
    have hitems := nesting_array_le_iff.mp hbudget
    exact mapM_map_of_forall fun x hx =>
      h x hx budget (hitems _ (List.mem_map_of_mem hx))

theorem restores_texts (values : List String) : Restores texts? values (.texts values) :=
  restores_list fun value _ => restores_text value

/-! ## Slots -/

/-- The fields of a structure that are not left out. -/
def present (slots : List (String × Option Json)) : List (String × Json) :=
  slots.filterMap fun (name, value) => value.map (name, ·)

/-- The value of a list field, if it is not left out. -/
def listSlot (write : α → Json) (xs : List α) : Option Json :=
  if xs.isEmpty then none else some (.array (xs.map write))

theorem field_eq_present (name : String) (value : Json) :
    field name value = present [(name, some value)] :=
  rfl

theorem fieldIfSome_eq_present (name : String) (value : Option α) :
    fieldIfSome name value write = present [(name, value.map write)] := by
  cases value <;> rfl

theorem fieldUnlessEmpty_eq_present (name : String) (xs : List α) :
    fieldUnlessEmpty name xs write = present [(name, listSlot write xs)] := by
  cases xs <;> rfl

theorem present_append (slots more : List (String × Option Json)) :
    present (slots ++ more) = present slots ++ present more :=
  List.filterMap_append

theorem map_fst_present_sublist (slots : List (String × Option Json)) :
    ((present slots).map Prod.fst).Sublist (slots.map Prod.fst) := by
  induction slots with
  | nil => exact .slnil
  | cons slot slots ih =>
    obtain ⟨name, value⟩ := slot
    cases value with
    | none => exact ih.cons name
    | some value => exact ih.cons_cons name

theorem mem_present_iff {slots : List (String × Option Json)} {name : String} {value : Json} :
    (name, value) ∈ present slots ↔ (name, some value) ∈ slots := by
  simp [present, List.mem_filterMap]

/-- **The fields of a record are the present ones**, when it is read with the names of
its slots. -/
theorem fields?_record_present {slots : List (String × Option Json)}
    (hnodup : (slots.map Prod.fst).Nodup) :
    (record (present slots)).fields? (slots.map Prod.fst) = some (present slots) := by
  have hsublist := map_fst_present_sublist slots
  have hmembers : ((present slots).map fun field => (some field.1, field.2)).mapM
      (fun (member : Option String × Json) => member.1.map (·, member.2))
      = some (present slots) :=
    mapM_map_of_forall fun _ _ => rfl
  have hknown : (present slots).filter (fun field => (slots.map Prod.fst).contains field.1)
      = present slots :=
    List.filter_eq_self.mpr fun field hfield =>
      List.contains_iff_mem.mpr (hsublist.subset (List.mem_map_of_mem hfield))
  unfold record fields?
  dsimp only
  rw [hmembers, Option.bind_eq_bind, Option.bind_some, hknown,
    if_pos (hnodup.sublist hsublist)]
  rfl

/-- A field is looked up in its slot. -/
theorem lookup_present {slots : List (String × Option Json)}
    (hnodup : (slots.map Prod.fst).Nodup) {name : String} {value : Option Json}
    (h : (name, value) ∈ slots) : (present slots).lookup name = value := by
  induction slots with
  | nil => cases h
  | cons slot slots ih =>
    obtain ⟨first, firstValue⟩ := slot
    obtain ⟨hfirst, hrest⟩ := List.nodup_cons.mp hnodup
    rcases List.mem_cons.mp h with heq | hmem
    · obtain ⟨rfl, rfl⟩ := Prod.mk.inj heq
      cases value with
      | some value => exact List.lookup_cons_self
      | none =>
        -- no slot behind has the name of the field that is left out
        refine List.lookup_eq_none_iff.mpr fun field hfield => ?_
        have hmem := (map_fst_present_sublist slots).subset (List.mem_map_of_mem hfield)
        exact bne_iff_ne.mpr fun heq => hfirst (heq ▸ hmem)
    · have hne : (name == first) = false :=
        beq_eq_false_iff_ne.mpr fun heq =>
          hfirst (List.mem_map.mpr ⟨(name, value), hmem, heq⟩)
      cases firstValue with
      | none => exact ih hrest hmem
      | some v =>
        show ((first, v) :: present slots).lookup name = value
        rw [List.lookup_cons, hne]
        exact ih hrest hmem

/-- **Slots that fit a budget**: they have distinct names, and no value nests deeper than
the budget. -/
structure Fits (budget : Nat) (slots : List (String × Option Json)) : Prop where
  nodup : (slots.map Prod.fst).Nodup
  within : ∀ name value, (name, some value) ∈ slots → value.nesting ≤ budget

namespace Fits

variable {budget : Nat} {slots : List (String × Option Json)} (fits : Fits budget slots)
  (name : String)

include fits

/-- A field that must be present. -/
theorem required {x : α} {json : Json} (hslot : (name, some json) ∈ slots)
    (h : Restores read x json) :
    Fields.required? (present slots) name (read budget) = some x := by
  rw [Fields.required?, lookup_present fits.nodup hslot]
  exact h budget (fits.within _ _ hslot)

/-- A field with a default that is present. -/
theorem defaulted {x : α} {json : Json} (absent : α) (hslot : (name, some json) ∈ slots)
    (h : Restores read x json) :
    Fields.optional? (present slots) name absent (read budget) = some x := by
  rw [Fields.optional?, lookup_present fits.nodup hslot]
  exact h budget (fits.within _ _ hslot)

/-- An optional field, which is left out when it is absent. What is written for a value
must not be `null`, which stands for none. -/
theorem optional {x : Option α} (hslot : (name, x.map write) ∈ slots)
    (hnull : ∀ a, write a ≠ .null) (h : ∀ a, Restores read a (write a)) :
    Fields.optional? (present slots) name none (nullable? (read budget)) = some x := by
  rw [Fields.optional?, lookup_present fits.nodup hslot]
  cases x with
  | none => rfl
  | some a =>
    have hread : read budget (write a) = some a := h a budget (fits.within _ _ hslot)
    show nullable? (read budget) (write a) = some (some a)
    rw [nullable?.eq_2 _ _ (hnull a), hread, Option.map_some]

theorem optionalText (x : Option String) (hslot : (name, x.map .text) ∈ slots) :
    Fields.optional? (present slots) name none (nullable? text?) = some x :=
  fits.optional name hslot (fun _ => Json.noConfusion) restores_text

theorem optionalTexts (x : Option (List String)) (hslot : (name, x.map .texts) ∈ slots) :
    Fields.optional? (present slots) name none (nullable? (texts? budget)) = some x :=
  fits.optional name hslot (fun _ => Json.noConfusion) restores_texts

/-- A list field, which is left out when the list is empty. -/
theorem list {xs : List α} (hslot : (name, listSlot write xs) ∈ slots)
    (h : ∀ x ∈ xs, Restores read x (write x)) :
    Fields.optional? (present slots) name [] (list? read budget) = some xs := by
  rw [Fields.optional?, lookup_present fits.nodup hslot]
  cases xs with
  | nil => rfl
  | cons x xs => exact restores_list h budget (fits.within _ _ hslot)

theorem texts (xs : List String) (hslot : (name, listSlot .text xs) ∈ slots) :
    Fields.optional? (present slots) name [] (texts? budget) = some xs :=
  fits.list name hslot fun x _ => restores_text x

end Fits

/-- **A record is restored when its present fields are read as the structure**, whatever
budget its slots fit. -/
theorem restores_record {slots : List (String × Option Json)} {x : α} (names : List String)
    (hnames : slots.map Prod.fst = names) (hnodup : names.Nodup)
    (h : ∀ budget, Fits budget slots →
      (record (present slots)).fields? names = some (present slots) →
      read (budget + 1) (record (present slots)) = some x) :
    Restores read x (record (present slots)) := by
  subst hnames
  intro budget hbudget
  cases budget with
  | zero => simp [record, nesting] at hbudget
  | succ budget =>
    refine h budget ⟨hnodup, fun name value hslot => ?_⟩ (fields?_record_present hnodup)
    exact nesting_record_le_iff.mp hbudget (name, value) (mem_present_iff.mpr hslot)

/-! ## Written records -/

@[simp] theorem written_text (value : String) : Written (.text value) :=
  .scalar (.text value)

@[simp] theorem written_bool (value : Bool) : Written (.bool value) :=
  .scalar (.bool value)

@[simp] theorem written_natural (value : Nat) : Written (.natural value) :=
  .scalar (.natural value)

/-- An array has a text when its items have one. -/
@[simp] theorem written_array_iff {items : List Json} :
    Written (.array items) ↔ ∀ item ∈ items, Written item := by
  refine ⟨fun h => ?_, .array⟩
  cases h with
  | scalar h => cases h
  | array h => exact h

@[simp] theorem written_texts (values : List String) : Written (.texts values) :=
  written_array_iff.mpr (List.forall_mem_map.mpr fun value _ => written_text value)

/-- All fields have a text. -/
def FieldsWritten (fields : List (String × Json)) : Prop :=
  ∀ field ∈ fields, Written field.2

/-- A record has a text when its fields have one. -/
@[simp] theorem written_record_iff {fields : List (String × Json)} :
    Written (record fields) ↔ FieldsWritten fields := by
  constructor
  · intro h
    cases h with
    | scalar h => cases h
    | object _ values => exact fun field hfield => values _ (List.mem_map_of_mem hfield)
  · intro h
    exact .object (List.forall_mem_map.mpr fun field _ => ⟨field.1, rfl⟩)
      (List.forall_mem_map.mpr h)

@[simp] theorem fieldsWritten_append {fields more : List (String × Json)} :
    FieldsWritten (fields ++ more) ↔ FieldsWritten fields ∧ FieldsWritten more :=
  List.forall_mem_append

@[simp] theorem fieldsWritten_field {name : String} {value : Json} :
    FieldsWritten (field name value) ↔ Written value :=
  List.forall_mem_singleton

@[simp] theorem fieldsWritten_fieldIfSome {name : String} {value : Option α} :
    FieldsWritten (fieldIfSome name value write) ↔ ∀ x ∈ value, Written (write x) := by
  cases value <;> simp [FieldsWritten, fieldIfSome]

@[simp] theorem fieldsWritten_fieldUnlessEmpty {name : String} {xs : List α} :
    FieldsWritten (fieldUnlessEmpty name xs write) ↔ ∀ x ∈ xs, Written (write x) := by
  cases xs <;> simp [FieldsWritten, fieldUnlessEmpty]

/-! ## Whole texts -/

/-- **The text of what is written for a value is read as that value**, at every level of a
layout, when it nests no deeper than the limit. -/
theorem read?_chars {x : α} {json : Json} {layout : Layout} (hlayout : layout.Blank)
    (written : Written json) (restores : Restores read x json)
    (hnesting : json.nesting ≤ nestingLimit) (level : Nat) :
    read? read (String.ofList (chars layout level json)) = some x := by
  rw [read?, written.parse?_chars hlayout level]
  exact restores nestingLimit hnesting

/-- What is printed on one line or over several is read back. -/
theorem read?_print {x : α} {json : Json} {print : Json → String}
    (hprint : print ∈ [compact, pretty]) (written : Written json)
    (restores : Restores read x json) (hnesting : json.nesting ≤ nestingLimit) :
    read? read (print json) = some x := by
  rcases List.mem_pair.mp hprint with rfl | rfl
  · exact read?_chars compactLayout_blank written restores hnesting 0
  · exact read?_chars prettyLayout_blank written restores hnesting 0

/-- What is printed over several lines is read back with the end of its last line. -/
theorem read?_pretty_append {x : α} {json : Json} (written : Written json)
    (restores : Restores read x json) (hnesting : json.nesting ≤ nestingLimit) :
    read? read (pretty json ++ "\n") = some x := by
  have hline : pretty json ++ "\n" = String.ofList (chars prettyLayout 0 json ++ ['\n']) :=
    String.ofList_append.symm
  rw [read?, hline, written.parse?_chars_append prettyLayout_blank 0 (by decide)]
  exact restores nestingLimit hnesting

end TestScaffold.Json
