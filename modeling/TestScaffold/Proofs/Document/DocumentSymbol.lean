import TestScaffold.Document.DocumentSymbol
import TestScaffold.Proofs.Json.Record
/-!
# Document symbols are read back from their JSON

A symbol takes two containers for each level of children, its own object and the array of
its children, and two more for its ranges and their positions. Within that budget it is
read back (`DocumentSymbol.restores_toJson`), by recursion on the symbol.
-/

namespace TestScaffold

open Json (Written Restores present listSlot restores_record restores_text restores_word)

namespace Position

theorem written_toJson (p : Position) : Written p.toJson := by
  show Written (.record (Json.field "line" (.natural p.line.toNat)
    ++ Json.field "character" (.natural p.character.toNat)))
  simp

/-- The slots of a position. -/
def slots (p : Position) : List (String × Option Json) :=
  [("line", some (.natural p.line.toNat)), ("character", some (.natural p.character.toNat))]

theorem restores_toJson (p : Position) : Restores ofJson? p p.toJson := by
  show Restores ofJson? p (.record (present p.slots))
  refine restores_record ["line", "character"] rfl (by decide) fun budget fits hfields => ?_
  have hline := fits.required "line" (by simp [slots]) (restores_word p.line)
  have hcharacter := fits.required "character" (by simp [slots]) (restores_word p.character)
  rw [ofJson?, hfields]
  simp only [Option.bind_eq_bind, Option.bind_some, hline, hcharacter]
  rfl

end Position

namespace Range

theorem written_toJson (r : Range) : Written r.toJson := by
  show Written (.record (Json.field "start" r.start.toJson ++ Json.field "end" r.stop.toJson))
  simp [Position.written_toJson]

/-- The slots of a range. -/
def slots (r : Range) : List (String × Option Json) :=
  [("start", some r.start.toJson), ("end", some r.stop.toJson)]

theorem restores_toJson (r : Range) : Restores ofJson? r r.toJson := by
  show Restores ofJson? r (.record (present r.slots))
  refine restores_record ["start", "end"] rfl (by decide) fun budget fits hfields => ?_
  have hstart := fits.required "start" (by simp [slots]) r.start.restores_toJson
  have hstop := fits.required "end" (by simp [slots]) r.stop.restores_toJson
  rw [ofJson?, hfields]
  simp only [Option.bind_eq_bind, Option.bind_some, hstart, hstop]
  rfl

end Range

namespace SymbolKind

/-- Names are written in lower case. -/
theorem map_toLower_name (kind : SymbolKind) : kind.name.map Char.toLower = kind.name := by
  rw [← String.toList_inj, String.toList_map]
  cases kind <;> decide

/-- Each kind has a name of its own. -/
theorem ofName_name (kind : SymbolKind) : ofName kind.name = kind := by
  rw [ofName, map_toLower_name]
  cases kind <;> decide

theorem restores_toJson (kind : SymbolKind) : Restores (fun _ => ofJson?) kind kind.toJson := by
  intro _ _
  show some (ofName kind.name) = some kind
  rw [ofName_name]

end SymbolKind

namespace DocumentSymbol

theorem toJsonAll_eq_map (symbols : List DocumentSymbol) :
    toJsonAll symbols = symbols.map toJson := by
  induction symbols with
  | nil => rfl
  | cons s symbols ih => rw [toJsonAll, ih, List.map_cons]

theorem ofJsonAll?_eq_list? (budget : Nat) :
    ofJsonAll? budget = Json.list? ofJson? budget := by
  funext json
  cases budget <;> cases json <;> rfl

theorem written_toJson : ∀ s : DocumentSymbol, Written s.toJson
  | ⟨name, detail, kind, range, selectionRange, children⟩ => by
    have hchildren : ∀ s ∈ children, Written s.toJson := fun s _ => written_toJson s
    simpa [toJson, toJsonAll_eq_map, SymbolKind.toJson, Range.written_toJson] using hchildren

/-- The slots of a symbol. -/
def slots (s : DocumentSymbol) : List (String × Option Json) :=
  [("name", some (.text s.name)),
    ("detail", some (.text s.detail)),
    ("kind", some s.kind.toJson),
    ("range", some s.range.toJson),
    ("selectionRange", some s.selectionRange.toJson),
    ("children", listSlot toJson s.children)]

theorem toJson_eq (s : DocumentSymbol) : s.toJson = .record (present s.slots) := by
  obtain ⟨name, detail, kind, range, selectionRange, children⟩ := s
  simp only [toJson, toJsonAll_eq_map, Json.field_eq_present, Json.fieldUnlessEmpty_eq_present,
    ← Json.present_append]
  simp [slots, listSlot]

theorem restores_toJson : ∀ s : DocumentSymbol, Restores ofJson? s s.toJson
  | ⟨name, detail, kind, range, selectionRange, children⟩ => by
    have hchildren : ∀ s ∈ children, Restores ofJson? s s.toJson := fun s _ => restores_toJson s
    rw [toJson_eq]
    refine restores_record fieldNames rfl (by decide) fun budget fits hfields => ?_
    have hname := fits.required "name" (by simp [slots]) (restores_text name)
    have hdetail := fits.defaulted "detail" "" (by simp [slots]) (restores_text detail)
    have hkind := fits.required "kind" (by simp [slots]) kind.restores_toJson
    have hrange := fits.required "range" (by simp [slots]) range.restores_toJson
    have hselection := fits.required "selectionRange" (by simp [slots])
      selectionRange.restores_toJson
    have hchildren := fits.list "children" (by simp [slots]) hchildren
    rw [ofJson?, hfields]
    simp only [ofJsonAll?_eq_list?, Option.bind_eq_bind, Option.bind_some, hname, hdetail, hkind,
      hrange, hselection, hchildren]
    rfl

end DocumentSymbol

end TestScaffold
