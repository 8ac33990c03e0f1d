import TestScaffold.Proofs.Settings.Layer
import TestScaffold.Toml.Reader
/-!
# TOML documents are layers

A document that is read is a table whose names are distinct, at every depth
(`exists_of_parse?`). This is what the tables keep while lines are added to them: a key is only
given a value when it has none (`Sound`), whatever headers and dotted keys lead to it.
-/

namespace TestScaffold.Toml

open Json (IsToml IsTable)

/-! ## Tables -/

/-- **A sound node**: the keys of tables are distinct, and values are those of layers. -/
inductive Node.Sound : Node → Prop
  | value {value : Json} (h : IsToml value) : Sound (.value value)
  | table (origin : Origin) {entries : Entries} (nodup : (entries.map Prod.fst).Nodup)
    (nodes : ∀ entry ∈ entries, Sound entry.2) : Sound (.table origin entries)
  | tables (earlier : List Entries) (last : Entries) : Sound (.tables earlier last)

/-- **Sound entries**: their keys are distinct, and their nodes are sound. -/
structure Entries.Sound (entries : Entries) : Prop where
  /-- Keys are distinct. -/
  nodup : (entries.map Prod.fst).Nodup
  /-- Nodes are sound. -/
  nodes : ∀ entry ∈ entries, entry.2.Sound

variable {entries inner result : Entries} {key : String} {node : Node} {origin : Origin}

theorem Entries.sound_nil : Sound [] :=
  ⟨.nil, by simp⟩

theorem Node.sound_table_iff : (Node.table origin entries).Sound ↔ entries.Sound :=
  ⟨fun | .table _ nodup nodes => ⟨nodup, nodes⟩, fun h => .table origin h.nodup h.nodes⟩

/-- The node of a key is sound. -/
theorem Entries.Sound.lookup (h : entries.Sound) (hlookup : entries.lookup key = some node) :
    node.Sound := by
  induction entries with
  | nil => cases hlookup
  | cons entry entries ih =>
    obtain ⟨k, n⟩ := entry
    obtain ⟨hfirst, hrest⟩ := List.forall_mem_cons.mp h.nodes
    rw [List.lookup_cons] at hlookup
    split at hlookup
    · exact Option.some.inj hlookup ▸ hfirst
    · exact ih ⟨(List.nodup_cons.mp h.nodup).2, hrest⟩ hlookup

/-- A key that is set is a key. -/
theorem Entries.mem_map_fst_set {other : String} :
    other ∈ (entries.set key node).map Prod.fst ↔ other = key ∨ other ∈ entries.map Prod.fst := by
  induction entries with
  | nil => simp [Entries.set]
  | cons entry entries ih =>
    obtain ⟨k, n⟩ := entry
    rw [Entries.set]
    by_cases hk : k = key
    · rw [if_pos hk]
      subst hk
      simp
    · rw [if_neg hk, List.map_cons, List.map_cons, List.mem_cons, List.mem_cons, ih]
      exact or_left_comm

/-- A key may get a sound node. -/
theorem Entries.Sound.set (h : entries.Sound) (hnode : node.Sound) :
    (entries.set key node).Sound := by
  induction entries with
  | nil => exact ⟨List.nodup_singleton _, by simpa [Entries.set]⟩
  | cons entry entries ih =>
    obtain ⟨k, n⟩ := entry
    obtain ⟨hnodup, hnodes⟩ := h
    rw [List.map_cons, List.nodup_cons] at hnodup
    obtain ⟨hfirst, hrest⟩ := List.forall_mem_cons.mp hnodes
    rw [Entries.set]
    by_cases hk : k = key
    · rw [if_pos hk]
      exact ⟨List.nodup_cons.mpr hnodup, List.forall_mem_cons.mpr ⟨hnode, hrest⟩⟩
    · obtain ⟨hset, hsetNodes⟩ := ih ⟨hnodup.2, hrest⟩
      rw [if_neg hk]
      exact ⟨List.nodup_cons.mpr
        ⟨fun hmem => (mem_map_fst_set.mp hmem).elim hk hnodup.1, hset⟩,
        List.forall_mem_cons.mpr ⟨hfirst, hsetNodes⟩⟩

/-- A new key may stand behind the others. -/
theorem Entries.Sound.append (h : entries.Sound) (hnode : node.Sound)
    (hnew : entries.lookup key = none) : (entries ++ [(key, node)]).Sound := by
  refine ⟨?_, List.forall_mem_append.mpr ⟨h.nodes, List.forall_mem_singleton.mpr hnode⟩⟩
  rw [List.map_append, List.nodup_append]
  refine ⟨h.nodup, List.nodup_singleton _, ?_⟩
  rintro k hk other hother rfl
  obtain rfl := List.mem_singleton.mp hother
  obtain ⟨entry, hentry, heq⟩ := List.mem_map.mp hk
  exact bne_iff_ne.mp (List.lookup_eq_none_iff.mp hnew entry hentry) heq.symm

/-- **What is changed at the end of a path leaves the tables on the way sound.** -/
theorem sound_descend {made : Origin} {change : Origin → Entries → Option Entries}
    (hchange : ∀ origin inner result, inner.Sound → change origin inner = some result →
      result.Sound) (path : List String) :
    ∀ {origin : Origin} {entries result : Entries}, entries.Sound →
      descend made change path origin entries = some result → result.Sound := by
  induction path with
  | nil => exact fun hentries h => hchange _ _ _ hentries h
  | cons key path ih =>
    intro origin entries result hentries h
    rw [descend] at h
    cases hnode : entries.lookup key with
    | none =>
      rw [hnode] at h
      obtain ⟨inner, hinner, hresult⟩ := Option.bind_eq_some_iff.mp h
      rw [← Option.some.inj hresult]
      exact hentries.set (Node.sound_table_iff.mpr (ih Entries.sound_nil hinner))
    | some node =>
      rw [hnode] at h
      have hsound := hentries.lookup hnode
      cases node with
      | value value => cases h
      | table origin inner =>
        dsimp only at h
        split at h
        · cases h
        · obtain ⟨after, hafter, hresult⟩ := Option.bind_eq_some_iff.mp h
          rw [← Option.some.inj hresult]
          exact hentries.set (Node.sound_table_iff.mpr
            (ih (Node.sound_table_iff.mp hsound) hafter))
      | tables earlier last =>
        obtain ⟨after, hafter, hresult⟩ := Option.bind_eq_some_iff.mp h
        rw [← Option.some.inj hresult]
        exact hentries.set (.tables _ _)

/-- A value leaves a table sound. -/
theorem sound_addValue {path : KeyPath} {value : Json} (hentries : entries.Sound)
    (hvalue : IsToml value) (h : addValue entries path value = some result) : result.Sound := by
  refine sound_descend (fun origin inner result hinner hchange => ?_) path.path hentries h
  split at hchange
  · cases hchange
  · rename_i hnew
    rw [← Option.some.inj hchange]
    refine hinner.append (.value hvalue) ?_
    rw [Bool.or_eq_true_iff, not_or, Option.not_isSome_iff_eq_none] at hnew
    exact hnew.2

/-- Values leave a table sound. -/
theorem sound_addValues {values : List (KeyPath × Json)} (hentries : entries.Sound)
    (hvalues : ∀ value ∈ values, IsToml value.2) (h : addValues entries values = some result) :
    result.Sound := by
  unfold addValues at h
  induction values generalizing entries with
  | nil => exact Option.some.inj h ▸ hentries
  | cons value values ih =>
    obtain ⟨hfirst, hrest⟩ := List.forall_mem_cons.mp hvalues
    rw [List.foldlM_cons] at h
    obtain ⟨next, hnext, hresult⟩ := Option.bind_eq_some_iff.mp h
    exact ih (sound_addValue hentries hfirst hnext) hrest hresult

/-- What stands under a header leaves a table sound. -/
theorem sound_addSection {s : Section} (hentries : entries.Sound)
    (hvalues : ∀ value ∈ s.values, IsToml value.2) (h : addSection entries s = some result) :
    result.Sound := by
  refine sound_descend (fun origin inner result hinner hchange => ?_) s.key.path hentries h
  split at hchange
  · obtain ⟨table, htable, hresult⟩ := Option.bind_eq_some_iff.mp hchange
    rw [← Option.some.inj hresult]
    exact hinner.set (Node.sound_table_iff.mpr
      (sound_addValues Entries.sound_nil hvalues htable))
  · rename_i old _ hold
    obtain ⟨table, htable, hresult⟩ := Option.bind_eq_some_iff.mp hchange
    rw [← Option.some.inj hresult]
    exact hinner.set (Node.sound_table_iff.mpr
      (sound_addValues (Node.sound_table_iff.mp (hinner.lookup hold)) hvalues htable))
  · obtain ⟨table, htable, hresult⟩ := Option.bind_eq_some_iff.mp hchange
    exact Option.some.inj hresult ▸ hinner.set (.tables _ _)
  · obtain ⟨table, htable, hresult⟩ := Option.bind_eq_some_iff.mp hchange
    exact Option.some.inj hresult ▸ hinner.set (.tables _ _)
  · cases hchange

/-- What stands under several headers leaves a table sound. -/
theorem sound_addSections {sections : List Section} (hentries : entries.Sound)
    (hvalues : ∀ s ∈ sections, ∀ value ∈ s.values, IsToml value.2)
    (h : sections.foldlM addSection entries = some result) : result.Sound := by
  induction sections generalizing entries with
  | nil => exact Option.some.inj h ▸ hentries
  | cons s sections ih =>
    obtain ⟨hfirst, hrest⟩ := List.forall_mem_cons.mp hvalues
    rw [List.foldlM_cons] at h
    obtain ⟨next, hnext, hresult⟩ := Option.bind_eq_some_iff.mp h
    exact ih (sound_addSection hentries hfirst hnext) hrest hresult

/-! ## Values of nodes -/

theorem membersOf_eq_map (entries : Entries) :
    membersOf entries = entries.map fun entry => (some entry.1, entry.2.toJson) := by
  induction entries with
  | nil => rfl
  | cons entry entries ih => rw [membersOf, ih, List.map_cons]

/-- The members of entries are those of a table when their values are those of layers. -/
theorem isTable_membersOf_of (hnodup : (entries.map Prod.fst).Nodup)
    (hvalues : ∀ entry ∈ entries, IsToml entry.2.toJson) : IsTable (membersOf entries) := by
  have hnames : (membersOf entries).map Prod.fst = (entries.map Prod.fst).map some := by
    rw [membersOf_eq_map, List.map_map, List.map_map]
    rfl
  refine ⟨?_, ?_, ?_⟩
  · rw [hnames]
    exact hnodup.map fun _ _ => Option.some.inj
  · rw [hnames]
    simp
  · rw [membersOf_eq_map]
    exact List.forall_mem_map.mpr hvalues

/-- **The value of a sound node is that of a layer.** -/
theorem Node.Sound.isToml (h : node.Sound) : IsToml node.toJson := by
  induction h with
  | value h => rwa [toJson]
  | table origin nodup _ ih =>
    rw [toJson, Json.isToml_object_iff]
    exact isTable_membersOf_of nodup ih
  | tables earlier last =>
    rw [toJson]
    exact .array _

theorem Entries.Sound.isToml (h : entries.Sound) : IsToml (.object (membersOf entries)) :=
  Json.isToml_object_iff.mpr
    (isTable_membersOf_of h.nodup fun entry hentry => (h.nodes entry hentry).isToml)

/-! ## Values in a text -/

section

variable {text rest : List Char} {value : Json}

theorem isToml_dateValue (text : List Char) : IsToml (dateValue text) :=
  Json.isToml_object_iff.mpr
    ⟨List.nodup_singleton _, by simp, by simp [IsToml.text]⟩

theorem isToml_of_scalar? {lexeme : List Char} (h : scalar? lexeme = some value) :
    IsToml value := by
  unfold scalar? at h
  split at h
  · exact Option.some.inj h ▸ .bool true
  split at h
  · exact Option.some.inj h ▸ .bool false
  split at h
  · exact Option.some.inj h ▸ isToml_dateValue lexeme
  split at h
  · exact Option.some.inj h ▸ .number _
  · cases h

theorem isToml_of_leadingScalar? (h : leadingScalar? text = some (value, rest)) :
    IsToml value := by
  unfold leadingScalar? at h
  extract_lets lexeme behind time at h
  split at h
  · obtain ⟨rfl, -⟩ := Prod.mk.inj (Option.some.inj h)
    exact isToml_dateValue _
  · obtain ⟨scalar, hscalar, hvalue⟩ := Option.map_eq_some_iff.mp h
    obtain ⟨rfl, -⟩ := Prod.mk.inj hvalue
    exact isToml_of_scalar? hscalar

/-- A value that is no list and no table. -/
theorem isToml_of_plainValue? (h : plainValue? text = some (value, rest)) : IsToml value := by
  cases text with
  | nil => cases h
  | cons c text =>
    rw [plainValue?] at h
    split at h
    · dsimp only at h
      split at h <;>
        obtain ⟨⟨string, after⟩, -, hvalue⟩ := Option.bind_eq_some_iff.mp h <;>
        obtain ⟨rfl, -⟩ := Prod.mk.inj (Option.some.inj hvalue) <;>
        exact .text string
    · exact isToml_of_leadingScalar? h

/-- A list that is read is a list. -/
theorem exists_of_items? {steps depth : Nat} {done : List Json}
    (h : items? steps depth done text = some (value, rest)) : ∃ items, value = .array items := by
  induction steps generalizing done text with
  | zero => cases h
  | succ steps ih =>
    unfold items? at h
    split at h
    · obtain ⟨rfl, -⟩ := Prod.mk.inj (Option.some.inj h)
      exact ⟨_, rfl⟩
    obtain ⟨⟨item, after⟩, -, h⟩ := Option.bind_eq_some_iff.mp h
    dsimp only at h
    split at h
    · obtain ⟨rfl, -⟩ := Prod.mk.inj (Option.some.inj h)
      exact ⟨_, rfl⟩
    · exact ih h
    · cases h

/-- **Every value that is read is that of a layer**, and so is every inline table behind
members whose values are. -/
theorem isToml_of_value? (steps : Nat) :
    (∀ {depth : Nat} {text rest : List Char} {value : Json},
      value? steps depth text = some (value, rest) → IsToml value)
    ∧ ∀ {depth : Nat} {done : List (KeyPath × Json)} {text rest : List Char} {value : Json},
      (∀ member ∈ done, IsToml member.2) →
      members? steps depth done text = some (value, rest) → IsToml value := by
  induction steps with
  | zero => exact ⟨fun h => (nomatch h), fun _ h => (nomatch h)⟩
  | succ steps ih =>
    obtain ⟨ihValue, ihMembers⟩ := ih
    constructor
    · intro depth text rest value h
      unfold value? at h
      split at h
      · split at h
        · cases h
        · obtain ⟨items, rfl⟩ := exists_of_items? h
          exact .array items
      · split at h
        · cases h
        split at h
        · rw [← (Prod.mk.inj (Option.some.inj h)).1]
          exact Json.isToml_object_iff.mpr Json.isTable_nil
        · exact ihMembers (List.forall_mem_nil _) h
      · exact isToml_of_plainValue? h
    · intro depth done text rest value hdone h
      unfold members? at h
      obtain ⟨⟨key, afterKey⟩, -, h⟩ := Option.bind_eq_some_iff.mp h
      obtain ⟨afterSign, -, h⟩ := Option.bind_eq_some_iff.mp h
      obtain ⟨⟨inner, afterValue⟩, hinner, h⟩ := Option.bind_eq_some_iff.mp h
      have hmore : ∀ member ∈ (key, inner) :: done, IsToml member.2 :=
        List.forall_mem_cons.mpr ⟨ihValue hinner, hdone⟩
      dsimp only at h
      split at h
      · obtain ⟨entries, hentries, h⟩ := Option.bind_eq_some_iff.mp h
        obtain ⟨rfl, -⟩ := Prod.mk.inj (Option.some.inj h)
        exact (sound_addValues Entries.sound_nil
          (fun member hmember => hmore member (List.mem_reverse.mp hmember)) hentries).isToml
      · exact ihMembers hmore h
      · cases h

end

/-! ## Documents -/

/-- A line gives a value of a layer, if it gives any. -/
def Line.Sound : Line → Prop
  | .header _ _ => True
  | .assignment _ value => IsToml value

theorem sound_of_line? {text rest : List Char} {line : Line}
    (h : line? text = some (line, rest)) : line.Sound := by
  unfold line? at h
  split at h
  · obtain ⟨⟨key, afterKey⟩, -, h⟩ := Option.bind_eq_some_iff.mp h
    obtain ⟨afterBracket, -, h⟩ := Option.bind_eq_some_iff.mp h
    obtain ⟨afterLine, -, h⟩ := Option.bind_eq_some_iff.mp h
    obtain ⟨rfl, -⟩ := Prod.mk.inj (Option.some.inj h)
    trivial
  · obtain ⟨⟨key, afterKey⟩, -, h⟩ := Option.bind_eq_some_iff.mp h
    obtain ⟨afterBracket, -, h⟩ := Option.bind_eq_some_iff.mp h
    obtain ⟨afterLine, -, h⟩ := Option.bind_eq_some_iff.mp h
    obtain ⟨rfl, -⟩ := Prod.mk.inj (Option.some.inj h)
    trivial
  · obtain ⟨⟨key, afterKey⟩, -, h⟩ := Option.bind_eq_some_iff.mp h
    obtain ⟨afterSign, -, h⟩ := Option.bind_eq_some_iff.mp h
    obtain ⟨⟨value, afterValue⟩, hvalue, h⟩ := Option.bind_eq_some_iff.mp h
    obtain ⟨afterLine, -, h⟩ := Option.bind_eq_some_iff.mp h
    obtain ⟨rfl, -⟩ := Prod.mk.inj (Option.some.inj h)
    exact (isToml_of_value? _).1 hvalue

theorem sound_of_lines? {steps : Nat} {text : List Char} {lines : List Line}
    (h : lines? steps text = some lines) : ∀ line ∈ lines, line.Sound := by
  induction steps generalizing text lines with
  | zero =>
    rw [lines?] at h
    split at h
    · exact Option.some.inj h ▸ List.forall_mem_nil _
    · cases h
  | succ steps ih =>
    unfold lines? at h
    split at h
    · exact Option.some.inj h ▸ List.forall_mem_nil _
    · obtain ⟨⟨line, rest⟩, hline, h⟩ := Option.bind_eq_some_iff.mp h
      obtain ⟨more, hmore, h⟩ := Option.bind_eq_some_iff.mp h
      rw [← Option.some.inj h]
      exact List.forall_mem_cons.mpr ⟨sound_of_line? hline, ih hmore⟩

/-- What is read so far holds values of layers. -/
def SoundSoFar (found : List (KeyPath × Json) × List Section) : Prop :=
  (∀ value ∈ found.1, IsToml value.2) ∧ ∀ s ∈ found.2, ∀ value ∈ s.values, IsToml value.2

theorem soundSoFar_addLine {found : List (KeyPath × Json) × List Section} {line : Line}
    (h : SoundSoFar found) (hline : line.Sound) : SoundSoFar (addLine found line) := by
  obtain ⟨top, sections⟩ := found
  obtain ⟨htop, hsections⟩ := h
  cases line with
  | header inList key =>
    exact ⟨htop, List.forall_mem_cons.mpr ⟨List.forall_mem_nil _, hsections⟩⟩
  | assignment key value =>
    have hvalue : ∀ v ∈ [(key, value)], IsToml v.2 := List.forall_mem_singleton.mpr hline
    cases sections with
    | nil => exact ⟨List.forall_mem_append.mpr ⟨htop, hvalue⟩, hsections⟩
    | cons s sections =>
      obtain ⟨hfirst, hrest⟩ := List.forall_mem_cons.mp hsections
      exact ⟨htop, List.forall_mem_cons.mpr
        ⟨List.forall_mem_append.mpr ⟨hfirst, hvalue⟩, hrest⟩⟩

/-- **A document that is read is a layer**: a table. -/
theorem exists_of_parse? {text : String} {layer : Json} (h : parse? text = some layer) :
    IsToml layer ∧ ∃ members, layer = .object members := by
  unfold parse? at h
  obtain ⟨joined, -, h⟩ := Option.bind_eq_some_iff.mp h
  obtain ⟨lines, hlines, h⟩ := Option.bind_eq_some_iff.mp h
  have hfound : SoundSoFar (lines.foldl addLine ([], [])) := by
    have hsound := sound_of_lines? hlines
    have hnone : SoundSoFar ([], []) := ⟨List.forall_mem_nil _, List.forall_mem_nil _⟩
    generalize (([], []) : List (KeyPath × Json) × List Section) = found at hnone
    clear hlines h
    induction lines generalizing found with
    | nil => exact hnone
    | cons line lines ih =>
      obtain ⟨hline, hrest⟩ := List.forall_mem_cons.mp hsound
      exact ih hrest _ (soundSoFar_addLine hnone hline)
  obtain ⟨htop, hsections⟩ := hfound
  generalize lines.foldl addLine ([], []) = found at h htop hsections
  obtain ⟨top, sections⟩ := found
  obtain ⟨entries, hentries, h⟩ := Option.bind_eq_some_iff.mp h
  obtain ⟨whole, hwhole, h⟩ := Option.bind_eq_some_iff.mp h
  rw [← Option.some.inj h]
  refine ⟨Entries.Sound.isToml ?_, _, rfl⟩
  exact sound_addSections (sound_addValues Entries.sound_nil htop hentries)
    (fun s hs => hsections s (List.mem_reverse.mp hs)) hwhole

end TestScaffold.Toml
