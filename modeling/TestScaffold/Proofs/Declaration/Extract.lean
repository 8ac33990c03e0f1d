import TestScaffold.Proofs.Declaration.Written
import TestScaffold.Proofs.Scan.Nested
/-!
# Extracting a parameter list

`extract` cuts a declaration at the parenthesis that opens its parameter list. It
looks for the text `listOpening` composes from the signature and the reported
name: the name, the generic suffix and the parenthesis. The lemmas of this module
follow its three steps for a signature that is a name, perhaps a generic suffix,
and a parameter list between parentheses:

* the suffix is found (`genericSuffix?_eq_some`), or there is none
  (`genericSuffix?_eq_none`);
* the opening is the name with its suffix and the parenthesis, whether the name
  itself was reported (`listOpening_of_name`) or nothing but the signature
  (`listOpening_of_unnamed`);
* the declaration is cut at that parenthesis and at the one that closes the list
  (`extract_eq`).

A text may stand behind the list. It is kept behind the parameters (`extract_of_cut`),
but it decides on the suffix, too: there is none unless the text ends with a parenthesis
(`genericSuffix?_eq_none_of_getLast?`), and then the suffix may reach into the text
(`exists_genericSuffix?_eq_some`).
-/

namespace TestScaffold.Declaration

open Scan Text

/-! ## The generic suffix -/

/-- The part of a text in front of its first bracket. -/
theorem span_brackets {name : List Char} (rest : List Char) {x : Char}
    (hname : ∀ c ∈ name, c ≠ '<' ∧ c ≠ '>' ∧ c ≠ '(' ∧ c ≠ ')')
    (hx : x = '<' ∨ x = '(') :
    (name ++ x :: rest).takeWhile
        (fun c => !(c == '<' || c == '>' || c == '(' || c == ')')) = name
      ∧ (name ++ x :: rest).dropWhile
        (fun c => !(c == '<' || c == '>' || c == '(' || c == ')')) = x :: rest := by
  have hplain : ∀ c ∈ name, (!(c == '<' || c == '>' || c == '(' || c == ')')) = true := by
    intro c hc
    simp [hname c hc]
  have hstop : (!(x == '<' || x == '>' || x == '(' || x == ')')) = false := by
    rcases hx with rfl | rfl <;> rfl
  refine ⟨?_, ?_⟩
  · rw [List.takeWhile_append_of_pos hplain, List.takeWhile_cons, hstop,
      if_neg Bool.false_ne_true, List.append_nil]
  · rw [List.dropWhile_append_of_pos hplain, List.dropWhile_cons, hstop,
      if_neg Bool.false_ne_true]

/-- A name in front of a parenthesis has no generic suffix. -/
theorem genericSuffix?_eq_none {name rest : List Char}
    (hname : ∀ c ∈ name, c ≠ '<' ∧ c ≠ '>' ∧ c ≠ '(' ∧ c ≠ ')')
    (htrim : Text.trim (name ++ '(' :: rest) = name ++ '(' :: rest) :
    genericSuffix? (name ++ '(' :: rest) = none := by
  unfold genericSuffix?
  dsimp only
  rw [htrim, (span_brackets rest hname (.inr rfl)).2]
  rfl

/-- **The generic suffix of a signature** ends where the parameter list begins, as
long as no parenthesis in the list stands behind a closing bracket. -/
theorem genericSuffix?_eq_some {name arguments params : List Char}
    (hname : ∀ c ∈ name, c ≠ '<' ∧ c ≠ '>' ∧ c ≠ '(' ∧ c ≠ ')') (hne : name ≠ [])
    (harguments : arguments ≠ []) (hparams : params = [] ∨ Written params)
    (hline : '\n' ∉ arguments ++ params)
    (htrim : Text.trim (name ++ '<' :: (arguments ++ '>' :: '(' :: (params ++ [')'])))
      = name ++ '<' :: (arguments ++ '>' :: '(' :: (params ++ [')']))) :
    genericSuffix? (name ++ '<' :: (arguments ++ '>' :: '(' :: (params ++ [')'])))
      = some ('<' :: arguments ++ ['>']) := by
  -- in the list a parenthesis stands behind a space or an opening bracket
  have hlater : ¬ ['>', '('] <:+: ['('] ++ (params ++ [')']) := fun hinfix => by
    have hfollows := List.isChain_pair.mp <| List.IsChain.infix (chain_parentheses hparams) hinfix
    exact absurd (hfollows.1 rfl) (by decide)
  have hcut := cutLastAt?_append arguments hlater
  have hshape : arguments ++ '>' :: '(' :: (params ++ [')'])
      = arguments ++ (['>', '('] ++ (params ++ [')'])) := rfl
  have hnoline : (arguments ++ (['>', '('] ++ (params ++ [')']))).contains '\n' = false := by
    rw [List.mem_append, not_or] at hline
    simp [hline]
  obtain ⟨htake, hdrop⟩ := span_brackets (arguments ++ (['>', '('] ++ (params ++ [')'])))
    hname (.inl rfl)
  unfold genericSuffix?
  dsimp only
  rw [htrim, hshape, hdrop, htake]
  split
  · next rest hrest =>
    obtain ⟨-, rfl⟩ := List.cons.inj hrest
    rw [hcut]
    dsimp only
    rw [hnoline, if_pos]
    simp [hne, harguments]
  · next hrest => exact absurd rfl (hrest _)

/-- **A signature that does not end with a parenthesis has no generic suffix.** -/
theorem genericSuffix?_eq_none_of_getLast? {signature : List Char}
    (h : (Text.trim signature).getLast? ≠ some ')') : genericSuffix? signature = none := by
  unfold genericSuffix?
  dsimp only
  split
  · next rest hrest =>
    split
    · next arguments parameters hcut =>
      have htext : Text.trim signature
          = ((Text.trim signature).takeWhile
              (fun c => !(c == '<' || c == '>' || c == '(' || c == ')'))
            ++ '<' :: (arguments ++ ['>', '('])) ++ parameters := by
        conv_lhs => rw [← List.takeWhile_append_dropWhile (p := fun c : Char =>
          !(c == '<' || c == '>' || c == '(' || c == ')')) (l := Text.trim signature), hrest,
          eq_append_of_cutLastAt? hcut]
        simp
      have hlast : parameters.getLast? ≠ some ')' := by
        intro hlast
        obtain ⟨p, rfl⟩ := List.getLast?_eq_some_iff.mp hlast
        rw [htext, ← List.append_assoc, List.getLast?_concat] at h
        exact h rfl
      rw [if_neg]
      simp [hlast]
    · rfl
  · rfl

/-- **The generic suffix of a signature with a text behind its list** begins with the
generic parameters, when the text ends with a parenthesis. A parenthesis in the text that
stands behind a closing bracket makes the suffix go on from the list. -/
theorem exists_genericSuffix?_eq_some {name arguments rest : List Char}
    (hname : ∀ c ∈ name, c ≠ '<' ∧ c ≠ '>' ∧ c ≠ '(' ∧ c ≠ ')') (hne : name ≠ [])
    (harguments : arguments ≠ []) (hlast : rest.getLast? = some ')')
    (hline : '\n' ∉ arguments ++ rest)
    (htrim : Text.trim (name ++ '<' :: (arguments ++ '>' :: '(' :: rest))
      = name ++ '<' :: (arguments ++ '>' :: '(' :: rest)) :
    ∃ more, genericSuffix? (name ++ '<' :: (arguments ++ '>' :: '(' :: rest))
        = some ('<' :: (arguments ++ ['>']) ++ more)
      ∧ (more = [] ∨ ∃ s, more = '(' :: s) := by
  -- the place of the last cut is the opening of the list or stands behind it
  obtain ⟨more, params, hcut, hparams, hmore⟩ : ∃ more params,
      cutLastAt? ['>', '('] (arguments ++ '>' :: '(' :: rest) = some (arguments ++ more, params)
        ∧ params.getLast? = some ')' ∧ (more = [] ∨ ∃ s, more = '>' :: '(' :: s) := by
    by_cases hlater : ['>', '('] <:+: '(' :: rest
    · obtain ⟨⟨before, params⟩, hcut⟩ : ∃ cut, cutLastAt? ['>', '('] ('(' :: rest) = some cut :=
        Option.ne_none_iff_exists'.mp fun hnone => cutLastAt?_eq_none_iff.mp hnone hlater
      have hrest := eq_append_of_cutLastAt? hcut
      obtain ⟨s, rfl⟩ : ∃ s, before = '(' :: s := by
        cases before with
        | nil => exact absurd (List.cons.inj hrest).1 (by decide)
        | cons c s => exact ⟨s, by rw [(List.cons.inj hrest).1]⟩
      refine ⟨'>' :: '(' :: s, params, ?_, ?_, .inr ⟨s, rfl⟩⟩
      · exact cutLastAt?_append_of_eq_some (cutLastAt?_append_of_eq_some hcut ['>']) arguments
      · rw [(List.cons.inj hrest).2] at hlast
        cases params with
        | nil => simp at hlast
        | cons c params => simpa using hlast
    · exact ⟨[], rest, by simpa using cutLastAt?_append arguments hlater, hlast, .inl rfl⟩
  have hnoline : (arguments ++ '>' :: '(' :: rest).contains '\n' = false := by
    rw [List.mem_append, not_or] at hline
    simp [hline]
  obtain ⟨htake, hdrop⟩ := span_brackets (arguments ++ '>' :: '(' :: rest) hname (.inl rfl)
  have hsuffix : genericSuffix? (name ++ '<' :: (arguments ++ '>' :: '(' :: rest))
      = some ('<' :: (arguments ++ more) ++ ['>']) := by
    unfold genericSuffix?
    dsimp only
    rw [htrim, hdrop, htake]
    split
    · next rest' hrest =>
      obtain ⟨-, rfl⟩ := List.cons.inj hrest
      rw [hcut]
      dsimp only
      rw [hnoline, if_pos]
      simp [hne, harguments, hparams]
    · next hrest => exact absurd rfl (hrest _)
  rcases hmore with rfl | ⟨s, rfl⟩
  · exact ⟨[], by rw [hsuffix]; simp, .inl rfl⟩
  · exact ⟨'(' :: (s ++ ['>']), by rw [hsuffix]; simp, .inr ⟨_, rfl⟩⟩

/-! ## The opening of the list -/

section Reported

variable {signature name suffix : List Char} (hne : name ≠ []) (hctor : name ≠ ".ctor".toList)
  (hangle : '<' ∉ name)
include hne hctor hangle

/-- The opening for a name that is reported without generic parameters. -/
theorem listOpening_eq (signature : List Char) :
    listOpening signature name
      = (cutWhere? (· == '(') (name ++ (genericSuffix? signature).getD [])).elim
          (normalize (name ++ (genericSuffix? signature).getD []) ++ ['('])
          fun cut => normalize (cut.1 ++ ['(']) := by
  have hreported : (name.isEmpty || name == ".ctor".toList) = false := by
    rw [Bool.or_eq_false_iff, beq_eq_false_iff_ne]
    exact ⟨by simpa using hne, hctor⟩
  have hcontains : name.contains '<' = false := by simpa using hangle
  unfold listOpening
  dsimp only
  rw [hreported, if_neg Bool.false_ne_true, hcontains, if_neg Bool.false_ne_true]
  cases cutWhere? (· == '(') (name ++ (genericSuffix? signature).getD []) <;> rfl

/-- **A reported name opens the list with its generic suffix.** -/
theorem listOpening_of_name (hsuffix : (genericSuffix? signature).getD [] = suffix)
    (hparen : '(' ∉ name ++ suffix) (htidy : Tidy (name ++ suffix)) :
    listOpening signature name = name ++ suffix ++ ['('] := by
  have hcut : cutWhere? (· == '(') (name ++ suffix) = none :=
    cutWhere?_eq_none fun c hc => beq_false_of_ne fun he => hparen (he ▸ hc)
  rw [listOpening_eq hne hctor hangle, hsuffix, hcut, Option.elim_none, htidy.normalize_eq]

/-- A suffix that goes on from the list opens it no further on. -/
theorem listOpening_of_suffix {more : List Char}
    (hsuffix : genericSuffix? signature = some (suffix ++ more))
    (hmore : more = [] ∨ ∃ s, more = '(' :: s) (hparen : '(' ∉ name ++ suffix)
    (htidy : Tidy (name ++ suffix)) :
    listOpening signature name = name ++ suffix ++ ['('] := by
  rcases hmore with rfl | ⟨s, rfl⟩
  · rw [List.append_nil] at hsuffix
    exact listOpening_of_name hne hctor hangle (by rw [hsuffix]; rfl) hparen htidy
  · have hcut : cutWhere? (· == '(') (name ++ (suffix ++ '(' :: s)) = some (name ++ suffix, s) := by
      rw [← List.append_assoc]
      exact cutWhere?_append_cons (fun c hc => beq_false_of_ne fun he => hparen (he ▸ hc)) rfl
    rw [listOpening_eq hne hctor hangle, hsuffix, Option.getD_some, hcut, Option.elim_some,
      (htidy.append (.of_solid (by decide))).normalize_eq]

end Reported

/-- **A constructor without a name of its own** takes the name its signature begins
with. -/
theorem listOpening_of_unnamed {name rest reported : List Char}
    (hreported : reported = [] ∨ reported = ".ctor".toList)
    (hsuffix : genericSuffix? (name ++ '(' :: rest) = none) (hparen : '(' ∉ name)
    (htidy : Tidy (name ++ ['('])) :
    listOpening (name ++ '(' :: rest) reported = name ++ ['('] := by
  have hunnamed : (reported.isEmpty || reported == ".ctor".toList) = true := by
    rcases hreported with rfl | rfl <;> rfl
  have hcut : ∀ s, cutWhere? (· == '(') (name ++ '(' :: s) = some (name, s) := fun s =>
    cutWhere?_append_cons (fun c hc => beq_false_of_ne fun he => hparen (he ▸ hc)) rfl
  unfold listOpening
  dsimp only
  rw [hunnamed, if_pos rfl, hsuffix, Option.getD_none, List.append_nil, ite_self, hcut]
  dsimp only
  rw [htidy.normalize_eq]

/-! ## Cutting the declaration -/

section Cut

variable {kind : Kind} {leading signature reported definition head rest : List Char}

/-- A method or constructor is defined by what stands in front of the cut. -/
theorem definition_extract (hkind : kind ≠ .classLike)
    (hjoin : joinWords (clean leading) signature = definition)
    (hcut : cutAtList? (listOpening signature reported) definition = some (head, rest)) :
    (extract leading signature reported kind).definition = Text.trim head := by
  cases kind with
  | classLike => exact absurd rfl hkind
  | constructor | method =>
    unfold extract
    dsimp only
    rw [hjoin, hcut]

/-- **The parameter list is cut out** between its own two parentheses, and what stands
behind it is kept with one space in front. -/
theorem extract_of_cut (hkind : kind ≠ .classLike) {params tail : List Char}
    (hjoin : joinWords (clean leading) signature = definition)
    (hcut : cutAtList? (listOpening signature reported) definition
      = some (head, params ++ ')' :: tail))
    (hnested : Nested params) (htrim : Text.trim params = params) :
    extract leading signature reported kind
      = ⟨Text.trim head, some (if (Text.trim tail).isEmpty then params
          else params ++ ' ' :: Text.trim tail)⟩ := by
  have hclose := cutAtClose?_nested hnested (c := ')') rfl tail
  cases kind with
  | classLike => exact absurd rfl hkind
  | constructor | method =>
    unfold extract
    dsimp only
    rw [hjoin, hcut]
    dsimp only
    rw [hclose, Option.getD_some]
    dsimp only
    rw [htrim]

end Cut

/-- **The parameter list is cut out** between its own two parentheses, and nothing
stands behind it. -/
theorem extract_eq {kind : Kind} (hkind : kind ≠ .classLike)
    {leading reported front name params : List Char}
    (hjoin : joinWords (clean leading) (name ++ '(' :: (params ++ [')']))
      = front ++ (name ++ '(' :: (params ++ [')'])))
    (hopening : listOpening (name ++ '(' :: (params ++ [')'])) reported = name ++ ['('])
    (hfront : Written (front ++ name)) {x : Char} (hx : name.getLast? = some x)
    (hxo : x ≠ ' ' ∧ x ≠ '<' ∧ x ≠ '(') (hnested : Nested params)
    (htrim : Text.trim params = params) :
    extract leading (name ++ '(' :: (params ++ [')'])) reported kind
      = ⟨front ++ name, some params⟩ := by
  have hcut : cutAtList? (listOpening (name ++ '(' :: (params ++ [')'])) reported)
      (front ++ (name ++ '(' :: (params ++ [')'])))
        = some (front ++ name, params ++ ')' :: []) := by
    rw [hopening, cutAtList?, hfront.cutAt?_opening hx hxo (params ++ [')'])]
    dsimp only
    rw [List.dropLast_concat]
  rw [extract_of_cut hkind hjoin hcut hnested htrim, hfront.tidy.trim_eq]
  rfl

end TestScaffold.Declaration
