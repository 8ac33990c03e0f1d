import Mathlib.Algebra.Group.Nat.Defs
import TestScaffold.Proofs.Document.DocumentSymbol
import TestScaffold.Proofs.Document.Intake
import TestScaffold.Proofs.Document.Source
import TestScaffold.Proofs.Model.Class
import TestScaffold.Proofs.Model.Member
/-!
# Documents that declare what the model prints

A symbol *spells* a declaration when the source text in front of its name, its display
signature and its name are those of the declaration. A class symbol that spells a simple
class, with children that spell simple methods, is read as that class with those methods
(`ofClassSymbol_of_spells`), and symbols are read back from the file that lists them
(`listOfJsonText?_compact`).

`plainText` and `plainSymbols` are such a document, a line for each class; it is read as the
plain classes of these names (`intake_plainText`).
-/

namespace TestScaffold

/-- **A symbol spells a declaration**, given by the text in front of its name, its signature
and its name. -/
structure DocumentSymbol.Spells (symbol : DocumentSymbol) (source : Source)
    (leading signature : List Char) (name : String) : Prop where
  /-- The source text is that in front of the name. -/
  slice_eq : source.slice symbol.range.start symbol.selectionRange.start = .ok leading
  /-- The display signature is that of the declaration. -/
  signature_eq : symbol.signature = signature
  /-- So is the name. -/
  name_eq : symbol.name = name

namespace Intake

variable {source : Source} {symbol : DocumentSymbol}

/-- What a symbol that spells a declaration is cut into. -/
theorem declaration_of_spells {leading signature : List Char} {name : String}
    (h : symbol.Spells source leading signature name) (kind : Declaration.Kind) :
    declaration source kind symbol
      = .ok (Declaration.extract leading signature name.toList kind) := by
  unfold declaration
  rw [h.slice_eq, h.signature_eq, h.name_eq]
  rfl

/-- **A symbol that spells a simple class** has the header of that class. -/
theorem classHeader_of_spells {c : Class} (hc : c.Simple)
    (h : symbol.Spells source c.leading (c.signature [] none) c.name) :
    classHeader source none symbol
      = .ok { c with usings := source.usings symbol.range.start.line.toNat } := by
  have hpath : ∀ n ∈ ([] : List String), IsIdentifier n := List.forall_mem_nil _
  have hprimary : ∀ parameters ∈ (none : Option (List Char)), Scan.Nested parameters :=
    fun _ hnone => nomatch hnone
  have hextract := hc.extract_eq hpath hprimary
  have hnamespace := hc.qualifiedNamespace?_signature hpath none
  have hcontaining := hc.containingNamespace
  unfold classHeader
  rw [declaration_of_spells h, hextract]
  dsimp only [bind, Except.bind]
  rw [hc.ofDefinition_eq, h.signature_eq, hnamespace]
  simp [pure, Except.pure, hcontaining]

/-- **A symbol that spells a simple method** contributes that method. -/
theorem contribution_of_spells {m : Method} (hm : m.Simple)
    (h : symbol.Spells source m.leading m.signature m.name) (hkind : symbol.kind = .methodKind) :
    contribution source [] symbol = .method m := by
  have hname : symbol.name ≠ ".ctor" := by
    rw [h.name_eq]
    exact fun heq => hm.name.ne_ctor (congrArg String.toList heq)
  rw [contribution_of_method hkind hname, methodOf, declaration_of_spells h, hm.extract_eq]
  simp only [bind, Except.bind, hm.ofParts_eq]
  rfl

/-- **A class symbol is read as the class and the methods that it spells.** -/
theorem ofClassSymbol_of_spells {c : Class} (hc : c.Simple) {methods : List Method}
    (h : symbol.Spells source c.leading (c.signature [] none) c.name)
    (hmethods : List.Forall₂ (fun child m => m.Simple ∧ child.kind = .methodKind
      ∧ child.Spells source m.leading m.signature m.name) symbol.children methods) :
    ofClassSymbol source [] none symbol
      = { classes := [{ c with
          methods, usings := source.usings symbol.range.start.line.toNat }] } := by
  have hchildren : symbol.children.map (contribution source []) = methods.map .method := by
    rw [← List.forall₂_eq_eq_eq, List.forall₂_map_left_iff, List.forall₂_map_right_iff]
    exact hmethods.imp fun _ _ ⟨hm, hkind, hspells⟩ => contribution_of_spells hm hspells hkind
  have hconstructors := hc.members.1
  unfold ofClassSymbol
  rw [classHeader_of_spells hc h]
  dsimp only
  rw [hchildren]
  simp [List.filterMap_map, Function.comp_def, Contribution.constructor?, Contribution.method?,
    Contribution.failure?, hconstructors]

end Intake

/-- **The symbols of a document are read back** from the file that lists them. -/
theorem DocumentSymbol.listOfJsonText?_compact {symbols : List DocumentSymbol}
    (h : (Json.array (symbols.map toJson)).nesting ≤ Json.nestingLimit) :
    listOfJsonText? (Json.array (symbols.map toJson)).compact = some symbols :=
  Json.read?_print (.head _) (Json.written_array_iff.mpr
    (List.forall_mem_map.mpr fun s _ => s.written_toJson))
    (Json.restores_list fun s _ => s.restores_toJson) h

/-! ## Plain documents -/

/-- A public method without parameters and without a result. -/
def Method.plain : Method :=
  { name := "Run", keywords := some ["public"], returnType := .named "void" }

/-- A public class without members. -/
def Class.empty (name : String) : Class :=
  { name, keywords := some ["public"] }

/-- A public class with a plain method. -/
def Class.plain (name : String) : Class :=
  { Class.empty name with methods := [.plain] }

/-- The declaration of a plain class. -/
def plainLine (name : String) : String :=
  "public class " ++ name ++ " \x7b public void Run() \x7b \x7d \x7d"

theorem length_plainLine (name : String) : (plainLine name).length = name.length + 39 := by
  have hfront : "public class ".length = 13 := by decide
  have hback : " \x7b public void Run() \x7b \x7d \x7d".length = 26 := by decide
  rw [plainLine, String.length_append, String.length_append, hfront, hback]
  omega

/-- A document with plain classes, each one on a line. -/
def plainText (names : List String) : String :=
  "\n".intercalate (names.map plainLine)

/-- A place in a line, behind some characters. -/
def Position.ofNat (line character : Nat) : Position :=
  ⟨.ofNat line, .ofNat character⟩

/-- The symbol of a plain method in a line, behind some characters. -/
def plainMethodSymbol (line before : Nat) : DocumentSymbol :=
  { name := "Run", detail := "Run()", kind := .methodKind
    range := ⟨.ofNat line before, .ofNat line (before + 21)⟩
    selectionRange := ⟨.ofNat line (before + 12), .ofNat line (before + 15)⟩ }

/-- The symbol of a plain class on a line. -/
def plainSymbol (name : String) (line : Nat) : DocumentSymbol :=
  { name, detail := name, kind := .classKind
    range := ⟨.ofNat line 0, .ofNat line (name.length + 39)⟩
    selectionRange := ⟨.ofNat line 13, .ofNat line (name.length + 13)⟩
    children := [plainMethodSymbol line (name.length + 16)] }

/-- The symbols of a document with plain classes. -/
def plainSymbols (names : List String) : List DocumentSymbol :=
  names.zipIdx.map fun (name, line) => plainSymbol name line

theorem Method.plain_simple : Method.plain.Simple where
  name := by decide +kernel
  keywords := by decide
  attributes := rfl
  constraints := rfl
  generics := by simp [plain]
  parameters := by simp [plain]
  returnType := .named (by decide +kernel)
  returnType_ne := by decide

/-- **A name that a plain class may have**: an identifier that is no word for classes and not
too long to be counted off. -/
structure IsPlainName (name : String) : Prop where
  /-- It is an identifier. -/
  isIdentifier : IsIdentifier name
  /-- It is no word in front of names. -/
  ne : name ≠ "class" ∧ name ≠ "struct"
  /-- Its length can be counted. -/
  length_lt : name.length < 2 ^ 31

namespace IsPlainName

variable {name : String}

theorem empty_simple (h : IsPlainName name) : (Class.empty name).Simple where
  name := h.isIdentifier
  name_ne := h.ne
  generics := by simp [Class.empty]
  keywords := (by decide : Declaration.AreModifiers Declaration.symbolKeywords (some ["public"]))
  implements := by simp [Class.empty]
  constraints := by simp [Class.empty]
  attributes := rfl
  containingNamespace := rfl
  usings := rfl
  members := ⟨rfl, rfl⟩

/-- The declaration of a plain class stays on its line. -/
theorem plain (h : IsPlainName name) :
    '\n' ∉ (plainLine name).toList ∧ '\r' ∉ (plainLine name).toList := by
  have hname : ∀ c, Text.isBlank c = true → c ∉ name.toList := fun c hc hmem =>
    Bool.noConfusion (hc.symm.trans (isBlank_of_isWordChar (h.isIdentifier.chars c hmem)))
  have hfeed := hname '\n' (by decide)
  have hreturn := hname '\r' (by decide)
  simp [plainLine, hfeed, hreturn]

end IsPlainName

/-- No using directive stands in a document from a plain class on. -/
theorem leadingUsings_plainLine (name : String) (lines : List (List Char)) :
    Source.leadingUsings ((plainLine name).toList :: lines) = [] := by
  have htrim : Text.trim (plainLine name).toList = (plainLine name).toList := by
    rw [plainLine, String.toList_append, String.toList_append, Text.trim_eq_self_iff]
    refine ⟨fun c hc => ?_, fun c hc => ?_⟩
    · obtain rfl : 'p' = c := by simpa using hc
      decide
    · rw [List.getLast?_append_of_ne_nil _ (by decide)] at hc
      obtain rfl : '\x7d' = c := by simpa using hc
      decide
  have hempty : (plainLine name).toList.isEmpty = false := by simp [plainLine]
  have hdirective : Source.directive? (plainLine name).toList = none := by
    have htake : (plainLine name).toList.take 5 = "publi".toList := by simp [plainLine]
    have hword : ("publi".toList.map Text.foldCase == "using".toList) = false := by decide
    unfold Source.directive?
    dsimp only
    rw [htake, hword]
    rfl
  unfold Source.leadingUsings
  dsimp only
  rw [htrim, hempty, hdirective]
  rfl

section

variable {names before after : List String} {name : String}

/-- A document with plain classes has their declarations for lines. -/
theorem hasLines_plainText (hne : names ≠ []) (h : ∀ name ∈ names, IsPlainName name) :
    Source.HasLines ⟨(plainText names).toList⟩ (names.map fun name => (plainLine name).toList) where
  ne := by simpa using hne
  text_eq := by simp [plainText, String.toList_intercalate, Function.comp_def]
  plain := List.forall_mem_map.mpr fun name hname => (h name hname).plain

/-- Plain classes are in a document without usings. -/
theorem usings_plainText (h : ∀ n ∈ name :: names, IsPlainName n) (limit : Nat) :
    Source.usings ⟨(plainText (name :: names)).toList⟩ limit = [] := by
  rw [Source.usings, (hasLines_plainText (List.cons_ne_nil _ _) h).lines_eq]
  cases limit with
  | zero => rfl
  | succ limit => rw [List.map_cons, List.take_succ_cons, leadingUsings_plainLine, List.map_nil]

/-- What stands between two places in the line of a plain class. -/
theorem slice_plainText (h : ∀ n ∈ before ++ name :: after, IsPlainName n)
    (hlength : before.length < 2 ^ 32) {start stop : Nat} (hle : start ≤ stop)
    (hstop : stop ≤ (plainLine name).length) :
    Source.slice ⟨(plainText (before ++ name :: after)).toList⟩ (.ofNat before.length start)
        (.ofNat before.length stop)
      = .ok (((plainLine name).toList.take stop).drop start) := by
  have hlines := hasLines_plainText (List.append_ne_nil_of_right_ne_nil _ (List.cons_ne_nil _ _)) h
  rw [List.map_append, List.map_cons] at hlines
  have hline : (UInt32.ofNat before.length).toNat
      = (before.map fun n => (plainLine n).toList).length := by
    rw [List.length_map]
    exact UInt32.toNat_ofNat_of_lt' hlength
  have hcount : ∀ n ≤ stop, (UInt32.ofNat n).toNat = n := fun n hn => by
    have hname := (h name (by simp)).length_lt
    rw [length_plainLine] at hstop
    exact UInt32.toNat_ofNat_of_lt' (show n < 2 ^ 32 by omega)
  unfold Position.ofNat
  rw [hlines.slice_eq hline hline, hcount start hle, hcount stop le_rfl]
  · rwa [hcount start hle, hcount stop le_rfl]
  · rwa [hcount stop le_rfl, String.length_toList]

/-- **Each line of a document with plain classes is read as its class.** -/
theorem ofSymbol_plainSymbol (h : ∀ n ∈ before ++ name :: after, IsPlainName n)
    (hlength : before.length < 2 ^ 32) :
    Intake.ofSymbol ⟨(plainText (before ++ name :: after)).toList⟩ [] none
        (plainSymbol name before.length)
      = { classes := [Class.plain name] } := by
  have hname := h name (by simp)
  have hall := length_plainLine name
  have hclass : (plainSymbol name before.length).Spells
      ⟨(plainText (before ++ name :: after)).toList⟩ (Class.empty name).leading
      ((Class.empty name).signature [] none) name := by
    refine ⟨(slice_plainText h hlength (Nat.zero_le 13) (by omega)).trans ?_, ?_, rfl⟩
    · have htake : (plainLine name).toList.take 13 = "public class ".toList := by simp [plainLine]
      rw [htake, List.drop_zero]
      simp [Class.leading, Class.empty]
      rfl
    · simp [DocumentSymbol.signature, Class.signature, plainSymbol, Class.pathChars, Class.chars,
        Class.empty, Class.primaryChars, Class.baseChars, Declaration.clauseChars,
        TypeExpr.genericChars]
  have hmethod : (plainMethodSymbol before.length (name.length + 16)).Spells
      ⟨(plainText (before ++ name :: after)).toList⟩ Method.plain.leading Method.plain.signature
      "Run" := by
    refine ⟨(slice_plainText h hlength (Nat.le_add_right (name.length + 16) 12) (by omega)).trans
      ?_, ?_, rfl⟩
    · have hcut : ((plainLine name).toList.take (name.length + 16 + 12)).drop (name.length + 16)
          = "public void ".toList := by
        rw [plainLine, String.toList_append, String.toList_append, List.append_assoc,
          List.drop_take]
        simp [List.drop_append, String.length_toList, List.drop_of_length_le]
      rw [hcut]
      simp [Method.leading, Method.plain, TypeExpr.named, TypeExpr.chars]
    · simp [plainMethodSymbol, DocumentSymbol.signature, Method.signature, Method.plain,
        signatureChars, Method.chars, TypeExpr.genericChars, Parameter.listChars, commaJoin]
  have husings : ∀ limit,
      Source.usings ⟨(plainText (before ++ name :: after)).toList⟩ limit = [] := by
    cases before with
    | nil => exact usings_plainText h
    | cons first before => exact usings_plainText h
  rw [Intake.ofSymbol_of_classLike (by simp [plainSymbol]),
    Intake.ofClassSymbol_of_spells hname.empty_simple hclass
      (.cons ⟨Method.plain_simple, rfl, hmethod⟩ .nil), husings]
  rfl

/-- **A document with plain classes is read as these classes.** -/
theorem intake_plainText (h : ∀ name ∈ names, IsPlainName name) (hlength : names.length < 2 ^ 32) :
    intake (plainText names) (plainSymbols names) [] = { classes := names.map Class.plain } := by
  suffices hrest : ∀ before after, before ++ after = names →
      Intake.ofSymbols ⟨(plainText names).toList⟩ [] none
          ((after.zipIdx before.length).map fun (name, line) => plainSymbol name line)
        = { classes := after.map Class.plain } from hrest [] names rfl
  intro before after heq
  induction after generalizing before with
  | nil => rfl
  | cons name after ih =>
    subst heq
    have hbefore : before.length < 2 ^ 32 := by
      rw [List.length_append] at hlength
      omega
    have hrest := ih (before ++ [name]) (by simp)
    rw [List.length_append, List.length_singleton] at hrest
    rw [List.zipIdx_cons, List.map_cons, Intake.ofSymbols, ofSymbol_plainSymbol h hbefore, hrest]
    rfl

end

end TestScaffold
