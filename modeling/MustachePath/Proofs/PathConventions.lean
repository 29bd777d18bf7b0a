import MustachePath.Proofs.JoinedPaths
import MustachePath.Proofs.NativeTags
import MustachePath.Proofs.SpelledPaths

/-!
# Paths of literal steps as tokens

A token ends brackets at the first closing bracket, also between quotes, and the path goes on only
if further steps follow there. So a path of names, indexes and quoted keys is one token exactly if
the brackets in each key close and open again as those of further steps do (`tokenize_text_iff`).
Keys without brackets are of this kind (`chained_spell`).
-/

namespace MustachePath

/-- Names, each after a dot. -/
def dottedNames (names : List Name) : Text := names.flatMap fun n => '.' :: n.text

/-- An opening bracket, maybe after a dot. -/
def opening (dotted : Bool) : Text := (if dotted then ['.'] else []) ++ ['[']

/-- Whether brackets around a text can be read as one pair or several: the brackets in the text come
in pairs, a closing one and an opening one, and each pair has only names after dots, and maybe one
more dot, between its two. -/
inductive Chained : Text → Prop
  | plain {u : Text} (hopen : '[' ∉ u) (hclose : ']' ∉ u) : Chained u
  | link {u t : Text} (hopen : '[' ∉ u) (hclose : ']' ∉ u) (names : List Name) (dotted : Bool)
      (h : Chained t) : Chained (u ++ ']' :: (dottedNames names ++ (opening dotted ++ t)))

/-- What a path of literal steps has between brackets: decimal digits, or a quoted key. -/
inductive LiteralKey where
  | index (digits : Text) (hne : digits ≠ []) (hdigits : ∀ c ∈ digits, isDecimalDigit c = true)
  | quoted (q : Quote) (k : Text) (hopen : '{' ∉ k) (hclose : '}' ∉ k)

/-- The text between the brackets. -/
def LiteralKey.text : LiteralKey → Text
  | index digits _ _ => digits
  | quoted q k _ _ => q.spell k

/-- A further step: a name after a dot, or brackets. -/
inductive LiteralStep where
  | field (n : Name)
  | bracket (x : LiteralKey)

namespace LiteralStep

/-- The step as it is written. -/
def text : LiteralStep → Text
  | field n => '.' :: n.text
  | bracket x => '[' :: (x.text ++ [']'])

/-- Whether the brackets in a key, if there are any, are chained. -/
def IsChained : LiteralStep → Prop
  | field _ => True
  | bracket x => Chained x.text

end LiteralStep

/-- A path of a name and literal steps. -/
structure LiteralPath where
  head : Name
  steps : List LiteralStep

namespace LiteralPath

/-- The path as it is written. -/
def text (p : LiteralPath) : Text := p.head.text ++ p.steps.flatMap LiteralStep.text

/-- Whether the brackets in all keys are chained. -/
def IsChained (p : LiteralPath) : Prop := ∀ s ∈ p.steps, s.IsChained

end LiteralPath

namespace Token

variable (dotted : Bool) {u : Text}

theorem readStep?_opening (hopen : '[' ∉ u) (hclose : ']' ∉ u) (rest : Text) :
    readStep? (opening dotted ++ (u ++ ']' :: rest)) =
      some (opening dotted ++ (u ++ [']']), rest) := by
  have hbracket := readBracket?_append hclose hopen rest
  rw [List.cons_append] at hbracket
  cases dotted with
  | true =>
      have hshape : opening true ++ (u ++ ']' :: rest) = '.' :: '[' :: (u ++ ']' :: rest) := rfl
      rw [hshape, readStep?, readName?_bracket, Option.none_or, hbracket]
      rfl
  | false =>
      have hshape : opening false ++ (u ++ ']' :: rest) = '[' :: (u ++ ']' :: rest) := rfl
      rw [hshape, readStep?.eq_def]
      exact hbracket

/-- Brackets that open twice before they close are no step. -/
theorem readStep?_opening_eq_none (hclose : ']' ∉ u) (rest : Text) :
    readStep? (opening dotted ++ (u ++ '[' :: rest)) = none := by
  have hbracket : readBracket? ('[' :: (u ++ '[' :: rest)) = none := by
    rw [readBracket?, readUntil?_eq_none (by decide) hclose]
    rfl
  cases dotted with
  | true =>
      have hshape : opening true ++ (u ++ '[' :: rest) = '.' :: '[' :: (u ++ '[' :: rest) := rfl
      rw [hshape, readStep?, readName?_bracket, Option.none_or, hbracket]
      rfl
  | false =>
      have hshape : opening false ++ (u ++ '[' :: rest) = '[' :: (u ++ '[' :: rest) := rfl
      rw [hshape, readStep?.eq_def]
      exact hbracket

theorem stops_dottedNames {rest : Text} (hr : Text.Stops isNameChar rest) (names : List Name) :
    Text.Stops isNameChar (dottedNames names ++ rest) := by
  cases names with
  | nil => exact hr
  | cons n names => exact Text.stops_cons.2 (by decide)

theorem stops_opening (rest : Text) : Text.Stops isNameChar (opening dotted ++ rest) := by
  cases dotted with
  | true => exact Text.stops_cons.2 (by decide)
  | false => exact Text.stops_cons.2 (by decide)

theorem readSteps_dottedNames {rest : Text} (hr : Text.Stops isNameChar rest) (names : List Name) :
    readSteps (dottedNames names ++ rest) = before (dottedNames names) (readSteps rest) := by
  induction names with
  | nil => rfl
  | cons n names ih =>
      have hshape : dottedNames (n :: names) ++ rest =
          '.' :: (n.text ++ (dottedNames names ++ rest)) := by
        simp [dottedNames]
      have hstep : readStep? ('.' :: (n.text ++ (dottedNames names ++ rest))) =
          some ('.' :: n.text, dottedNames names ++ rest) :=
        readStep?_suffix (.field n) (stops_dottedNames hr names)
      rw [hshape, readSteps_of_readStep?_eq_some hstep, ih]
      simp [before, dottedNames]

end Token

open Token

/-- Brackets around a chained text are read as steps up to their end. -/
theorem Chained.readSteps {t : Text} (h : Chained t) (dotted : Bool) (rest : Text) :
    Token.readSteps (opening dotted ++ (t ++ ']' :: rest)) =
      before (opening dotted ++ (t ++ [']'])) (Token.readSteps rest) := by
  induction h generalizing dotted with
  | plain hopen hclose =>
      exact readSteps_of_readStep?_eq_some (readStep?_opening dotted hopen hclose rest)
  | @link u t hopen hclose names again h ih =>
      rw [List.append_assoc, List.cons_append, List.append_assoc, List.append_assoc,
        readSteps_of_readStep?_eq_some (readStep?_opening dotted hopen hclose _),
        readSteps_dottedNames (stops_opening again _), ih again]
      simp [before]

/-- A text has no bracket, or a first one. -/
theorem exists_first_bracket (t : Text) :
    ('[' ∉ t ∧ ']' ∉ t) ∨
      ∃ u c v, t = u ++ c :: v ∧ '[' ∉ u ∧ ']' ∉ u ∧ (c = '[' ∨ c = ']') := by
  induction t with
  | nil => simp
  | cons d t ih =>
      by_cases hd : d = '[' ∨ d = ']'
      · exact .inr ⟨[], d, t, rfl, by simp, by simp, hd⟩
      · obtain ⟨hopen, hclose⟩ := not_or.1 hd
        obtain ⟨ho, hc⟩ | ⟨u, c, v, rfl, ho, hc, hbracket⟩ := ih
        · exact .inl ⟨by simp [ho, Ne.symm hopen], by simp [hc, Ne.symm hclose]⟩
        · exact .inr ⟨d :: u, c, v, rfl, by simp [ho, Ne.symm hopen], by simp [hc, Ne.symm hclose],
            hbracket⟩

/-- Where steps are read to the end, one is read at the front. -/
theorem readStep?_ne_none_of_readSteps {cs : Text} (hne : cs ≠ []) (h : (readSteps cs).2 = []) :
    readStep? cs ≠ none := by
  intro hnone
  rw [readSteps_of_readStep?_eq_none hnone] at h
  exact hne h

theorem stops_append_close {r rest : Text} (h : Text.Stops isNameChar r) :
    Text.Stops isNameChar (r ++ ']' :: rest) := by
  cases r with
  | nil => exact Text.stops_cons.2 (by decide)
  | cons c r => exact Text.stops_cons.2 (Text.stops_cons.1 h)

/-- Before a closing bracket, a step begins with an opening bracket, or is a name after a dot. -/
theorem opening_or_name_of_readStep? {s rest : Text} (h : readStep? (s ++ ']' :: rest) ≠ none) :
    (∃ dotted t, s = opening dotted ++ t) ∨
      ∃ (n : Name) (r : Text), s = '.' :: (n.text ++ r) ∧ Text.Stops isNameChar r := by
  cases s with
  | nil => exact absurd rfl h
  | cons c s =>
      by_cases hbracket : c = '['
      · exact .inl ⟨false, s, by rw [hbracket]; rfl⟩
      by_cases hdot : c = '.'
      · subst hdot
        cases hname : readName? s with
        | none =>
            have hnone : readName? (s ++ ']' :: rest) = none :=
              readName?_eq_none_iff.2 (stops_append_close (readName?_eq_none_iff.1 hname))
            rw [List.cons_append, readStep?, hnone, Option.none_or] at h
            cases s with
            | nil => exact absurd rfl h
            | cons d s =>
                by_cases hd : d = '['
                · exact .inl ⟨true, s, by rw [hd]; rfl⟩
                · exact absurd (by simp [readBracket?, hd]) h
        | some p =>
            obtain ⟨name, r⟩ := p
            exact .inr ⟨⟨name, isName_of_readName?_eq_some hname⟩, r,
              congrArg _ (readWhile?_eq_some hname).1, (all_of_readWhile?_eq_some hname).2⟩
      · exact absurd (by simp [readStep?, readBracket?, hdot, hbracket]) h

/-- Before a closing bracket, steps that are read to the end are names and then an opening
bracket. -/
theorem exists_opening_of_readSteps {s rest : Text} (h : (readSteps (s ++ ']' :: rest)).2 = []) :
    ∃ names dotted t, s = dottedNames names ++ (opening dotted ++ t) := by
  induction hlen : s.length using Nat.strong_induction_on generalizing s with
  | _ len ih =>
      obtain ⟨dotted, t, rfl⟩ | ⟨n, r, rfl, hr⟩ :=
        opening_or_name_of_readStep? (readStep?_ne_none_of_readSteps (by simp) h)
      · exact ⟨[], dotted, t, rfl⟩
      · have hfield : readStep? ('.' :: (n.text ++ (r ++ ']' :: rest))) =
            some ('.' :: n.text, r ++ ']' :: rest) :=
          readStep?_suffix (.field n) (stops_append_close hr)
        rw [List.cons_append, List.append_assoc, readSteps_of_readStep?_eq_some hfield] at h
        have hshorter : r.length < len := by
          simp only [← hlen, List.length_cons, List.length_append]
          omega
        obtain ⟨names, dotted, t, rfl⟩ := ih r.length hshorter h rfl
        exact ⟨n :: names, dotted, t, by simp [dottedNames]⟩

/-- A text is chained if steps that begin with brackets around it are read to the end. -/
theorem chained_of_readSteps {t rest : Text} (dotted : Bool)
    (h : (readSteps (opening dotted ++ (t ++ ']' :: rest))).2 = []) : Chained t := by
  induction hlen : t.length using Nat.strong_induction_on generalizing t dotted with
  | _ len ih =>
      obtain ⟨hopen, hclose⟩ | ⟨u, c, v, rfl, hopen, hclose, hc⟩ := exists_first_bracket t
      · exact .plain hopen hclose
      rw [List.append_assoc, List.cons_append] at h
      obtain rfl | rfl := hc
      · have hnone := readStep?_opening_eq_none dotted hclose (v ++ ']' :: rest)
        exact absurd hnone (readStep?_ne_none_of_readSteps (by simp [opening]) h)
      · rw [readSteps_of_readStep?_eq_some (readStep?_opening dotted hopen hclose _)] at h
        obtain ⟨names, again, t, rfl⟩ := exists_opening_of_readSteps h
        refine .link hopen hclose names again (ih t.length ?_ again ?_ rfl)
        · simp only [← hlen, List.length_cons, List.length_append]
          omega
        · rw [List.append_assoc, List.append_assoc,
            readSteps_dottedNames (stops_opening again _)] at h
          exact h

/-- Brackets are read as steps up to their end, and the steps after them to the end, exactly if the
text between them is chained. -/
theorem readSteps_bracket_iff {t rest : Text} :
    (readSteps ('[' :: (t ++ ']' :: rest))).2 = [] ↔ Chained t ∧ (readSteps rest).2 = [] := by
  constructor
  · intro h
    have hchained : Chained t := chained_of_readSteps false h
    have hread := hchained.readSteps false rest
    exact ⟨hchained, (congrArg Prod.snd hread).symm.trans h⟩
  · rintro ⟨hchained, h⟩
    have hread := hchained.readSteps false rest
    exact (congrArg Prod.snd hread).trans h

/-- Steps begin with a dot or a bracket. -/
theorem stops_literalSteps (test : Char → Bool) (hdot : test '.' = false) (hopen : test '[' = false)
    (ss : List LiteralStep) : Text.Stops test (ss.flatMap LiteralStep.text) := by
  cases ss with
  | nil => exact Text.stops_nil _
  | cons s ss =>
      cases s with
      | field n => exact Text.stops_cons.2 hdot
      | bracket x => exact Text.stops_cons.2 hopen

/-- Literal steps are read to the end exactly if the brackets in all keys are chained. -/
theorem readSteps_literalSteps_iff (ss : List LiteralStep) :
    (readSteps (ss.flatMap LiteralStep.text)).2 = [] ↔ ∀ s ∈ ss, s.IsChained := by
  induction ss with
  | nil =>
      rw [List.flatMap_nil, readSteps_of_readStep?_eq_none rfl]
      simp
  | cons s ss ih =>
      rw [List.forall_mem_cons, ← ih, List.flatMap_cons]
      cases s with
      | field n =>
          have hstops := stops_literalSteps isNameChar (by decide) (by decide) ss
          have hfield : readStep? ((LiteralStep.field n).text ++ ss.flatMap LiteralStep.text) =
              some ((LiteralStep.field n).text, ss.flatMap LiteralStep.text) :=
            readStep?_suffix (.field n) hstops
          rw [readSteps_of_readStep?_eq_some hfield]
          exact ⟨fun h => ⟨trivial, h⟩, fun h => h.2⟩
      | bracket x =>
          have hshape : (LiteralStep.bracket x).text ++ ss.flatMap LiteralStep.text =
              '[' :: (x.text ++ ']' :: ss.flatMap LiteralStep.text) := by
            simp [LiteralStep.text]
          rw [hshape]
          exact readSteps_bracket_iff

/-- A spelled text has, beside the characters of the text, only quotes and backslashes. -/
theorem mem_of_mem_spell {q : Quote} {k : Text} {c : Char} (hc : c ∈ q.spell k) :
    c ∈ k ∨ c = q.char ∨ c = '\\' := by
  simp only [Quote.spell, Quote.enclose, Quote.escape, List.mem_cons, List.mem_append,
    List.mem_flatMap, List.not_mem_nil, or_false] at hc
  obtain rfl | ⟨d, hd, hc⟩ | rfl := hc
  · exact .inr (.inl rfl)
  · split at hc
    · simp only [List.mem_cons, List.not_mem_nil, or_false] at hc
      obtain rfl | rfl := hc
      · exact .inr (.inr rfl)
      · exact .inl hd
    · rw [List.mem_singleton.1 hc]
      exact .inl hd
  · exact .inr (.inl rfl)

theorem notMem_spell (q : Quote) {k : Text} {c : Char} (hc : c ∉ ['"', '\'', '\\']) (hk : c ∉ k) :
    c ∉ q.spell k := by
  intro hmem
  obtain h | rfl | rfl := mem_of_mem_spell hmem
  · exact hk h
  · cases q <;> exact absurd hc (by decide)
  · exact absurd hc (by decide)

/-- A key without brackets is chained as it is spelled. -/
theorem chained_spell (q : Quote) {k : Text} (hopen : '[' ∉ k) (hclose : ']' ∉ k) :
    Chained (q.spell k) :=
  .plain (notMem_spell q (by decide) hopen) (notMem_spell q (by decide) hclose)

theorem LiteralStep.mem_text (s : LiteralStep) : ∀ c ∈ s.text, c ≠ '{' ∧ c ≠ '}' := by
  intro c hc
  cases s with
  | field n =>
      obtain rfl | hc := List.mem_cons.1 hc
      · decide
      · exact n.isName.braceless c hc
  | bracket x =>
      simp only [text, List.mem_cons, List.mem_append, List.not_mem_nil, or_false] at hc
      obtain rfl | hc | rfl := hc
      · decide
      · cases x with
        | index digits hne hdigits =>
            have hfree := NativeKey.excludes_of_isDecimalDigit (hdigits c hc)
            simp only [List.mem_cons, List.not_mem_nil, or_false, not_or] at hfree
            exact hfree.2.2.2.2
        | quoted q k hopen hclose =>
            constructor
            · rintro rfl
              exact notMem_spell q (by decide) hopen hc
            · rintro rfl
              exact notMem_spell q (by decide) hclose hc
      · decide

namespace LiteralPath

variable (p : LiteralPath)

/-- A path is read as one token, and then as further ones if its steps are not read to the end. -/
theorem tokenize_text :
    tokenize p.text =
      (p.head.text ++ (readSteps (p.steps.flatMap LiteralStep.text)).1) ::
        tokenize (readSteps (p.steps.flatMap LiteralStep.text)).2 := by
  have hstops := stops_literalSteps isNameChar (by decide) (by decide) p.steps
  have hequals : Text.Stops (· == '=') (Text.trimStart (p.steps.flatMap LiteralStep.text)) := by
    rw [Text.trimStart_eq_self (stops_literalSteps isBlank (by decide) (by decide) p.steps)]
    exact stops_literalSteps (· == '=') rfl rfl p.steps
  exact tokenize_name_steps p.head.isName hstops hequals

/-- A path is one token exactly if the brackets in all its keys are chained. -/
theorem tokenize_text_iff : tokenize p.text = [p.text] ↔ p.IsChained := by
  have happend := readSteps_append (p.steps.flatMap LiteralStep.text)
  rw [IsChained, ← readSteps_literalSteps_iff, p.tokenize_text]
  constructor
  · intro h
    have hhead := (List.cons.inj h).1
    rw [text, List.append_cancel_left_eq] at hhead
    rw [hhead] at happend
    exact List.append_right_eq_self.1 happend
  · intro h
    rw [h, List.append_nil] at happend
    rw [h, happend, tokenize_nil]
    rfl

/-- A lone path is read as this path exactly if the brackets in all its keys are chained. -/
theorem expressionOf_text_iff {o : Options} (hw : p.text ∉ o.widgetHelpers) :
    expressionOf o p.text = .path p.text ↔ p.IsChained := by
  have hplain : opensBlock p.text = false := opensBlock_of_isName p.head.isName
  rw [expressionOf_of_opensBlock_eq_false hplain, ← p.tokenize_text_iff]
  constructor
  · exact Expression.ofTokens_eq_path
  · intro h
    rw [h]
    simp [Expression.ofTokens, hw]

/-- Keys without brackets are chained. -/
theorem isChained_of_unbracketed
    (h : ∀ q k ho hc, .bracket (.quoted q k ho hc) ∈ p.steps → '[' ∉ k ∧ ']' ∉ k) :
    p.IsChained := by
  intro s hs
  cases s with
  | field n => trivial
  | bracket x =>
      cases x with
      | index digits hne hdigits =>
          exact .plain
            (fun hmem => NativeKey.excludes_of_isDecimalDigit (hdigits _ hmem) (by simp))
            (fun hmem => NativeKey.excludes_of_isDecimalDigit (hdigits _ hmem) (by simp))
      | quoted q k ho hc =>
          obtain ⟨hopen, hclose⟩ := h q k ho hc hs
          exact chained_spell q hopen hclose

/-- A path has no braces. -/
theorem mem_text : ∀ c ∈ p.text, c ≠ '{' ∧ c ≠ '}' := by
  intro c hc
  rw [text, List.mem_append, List.mem_flatMap] at hc
  obtain hc | ⟨s, -, hc⟩ := hc
  · exact p.head.isName.braceless c hc
  · exact s.mem_text c hc

end LiteralPath

/-- A path of a name and further steps (names after dots, indexes and quoted keys in brackets) as
the only tag of a template. It is one token, and so the tag holds this path alone, exactly if the
brackets in all its keys are chained, and they are if no key has any. -/
theorem tokenize_literalPath {o : Options} (p : LiteralPath) (hw : p.text ∉ o.widgetHelpers) :
    tags (braced p.text) = [⟨p.text, .start⟩] ∧
      (tokenize p.text = [p.text] ↔ p.IsChained) ∧
      (expressionOf o p.text = .path p.text ↔ p.IsChained) ∧
      ((∀ q k ho hc, .bracket (.quoted q k ho hc) ∈ p.steps → '[' ∉ k ∧ ']' ∉ k) →
        p.IsChained) := by
  have hcomment : commentInner? (p.text ++ ['}', '}']) = none := by
    rw [LiteralPath.text, List.append_assoc]
    exact Markers.commentInner?_lead_append ⟨false, false, false⟩
      (Markers.leads_of_isName p.head.isName) _
  have hopen : '{' ∉ p.text := fun h => (p.mem_text _ h).1 rfl
  have hclose : '}' ∉ p.text := fun h => (p.mem_text _ h).2 rfl
  exact ⟨tags_braced hopen hclose hcomment, p.tokenize_text_iff, p.expressionOf_text_iff hw,
    p.isChained_of_unbracketed⟩

/-- The path `orders['x].e.[y'].cells[0]["say \"hi\""]`. -/
def sampleLiteralPath : LiteralPath where
  head := ⟨"orders".toList, by decide +kernel⟩
  steps :=
    [.bracket (.quoted .single "x].e.[y".toList (by decide) (by decide)),
      .field ⟨"cells".toList, by decide +kernel⟩,
      .bracket (.index "0".toList (by decide) (List.all_eq_true.1 (by decide +kernel))),
      .bracket (.quoted .double "say \"hi\"".toList (by decide) (by decide))]

/-- Brackets in a key that close and open like those of further steps, and escaped quotes. -/
theorem tokenize_sampleLiteralPath :
    sampleLiteralPath.text = "orders['x].e.[y'].cells[0][\"say \\\"hi\\\"\"]".toList ∧
      sampleLiteralPath.text ∉ Options.default.widgetHelpers ∧
      tokenize sampleLiteralPath.text = [sampleLiteralPath.text] ∧
      expressionOf Options.default sampleLiteralPath.text = .path sampleLiteralPath.text := by
  have hwidgets : sampleLiteralPath.text ∉ Options.default.widgetHelpers := by decide +kernel
  have hkey : Chained (Quote.single.spell "x].e.[y".toList) :=
    .link (u := "'x".toList) (t := "y'".toList) (by decide) (by decide)
      [⟨"e".toList, by decide +kernel⟩] true (.plain (by decide) (by decide))
  have hindex : Chained "0".toList := .plain (by decide) (by decide)
  have hquotes : Chained (Quote.double.spell "say \"hi\"".toList) :=
    chained_spell .double (by decide) (by decide)
  have hchained : sampleLiteralPath.IsChained := by
    intro s hs
    obtain _ | ⟨_, _ | ⟨_, _ | ⟨_, _ | ⟨_, hs⟩⟩⟩⟩ := hs
    · exact hkey
    · trivial
    · exact hindex
    · exact hquotes
    · cases hs
  obtain ⟨-, htokens, hread, -⟩ := tokenize_literalPath sampleLiteralPath hwidgets
  exact ⟨by decide +kernel, hwidgets, htokens.2 hchained, hread.2 hchained⟩

/-- The path `cells['x]y']`. -/
def splitLiteralPath : LiteralPath where
  head := ⟨"cells".toList, by decide +kernel⟩
  steps := [.bracket (.quoted .single "x]y".toList (by decide) (by decide))]

/-- A closing bracket in a key splits a path that the accessor reads. -/
theorem not_tokenize_literalPath :
    ¬ ∀ p : LiteralPath, (∃ steps, Path.read p.text = .ok steps) → tokenize p.text = [p.text] := by
  intro h
  have hread : Path.read splitLiteralPath.text =
      .ok [.key "cells".toList, .key "x]y".toList] := eq_ok_of_toOption (by decide +kernel)
  have htokens : tokenize splitLiteralPath.text =
      ["cells['x]".toList, "y".toList, "']".toList] := by decide +kernel
  have hsingle := h splitLiteralPath ⟨_, hread⟩
  rw [htokens] at hsingle
  exact absurd (List.cons.inj hsingle).2 (List.cons_ne_nil _ _)

end MustachePath
