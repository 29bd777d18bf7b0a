import MustachePath.Proofs.Scanning
import MustachePath.Proofs.Tokens

/-!
# When and how a tag is rewritten

Taking the markers off a tag leaves the text between them (`strip_lead_append`). A tag is rewritten
in one of four shapes, each given by the expression that the tag's text is read as
(`rewritten_of_ofBody_eq_rewrite`).
-/

namespace MustachePath

namespace Markers

/-- The markers at the front of a tag's text. -/
def lead (m : Markers) : Text :=
  (if m.trimsBefore then ['~'] else []) ++ if m.raw then ['&'] else []

/-- The marker at the end of a tag's text. -/
def trail (m : Markers) : Text := if m.trimsAfter then ['~'] else []

theorem wrap_eq (m : Markers) (parts : List Text) :
    m.wrap parts = braced (m.lead ++ Text.joinSpaced (parts.filter (· ≠ [])) ++ m.trail) := by
  simp [wrap, lead, trail]

theorem getLast?_append_trail (m : Markers) (u : Text) :
    (u ++ m.trail).getLast? = if m.trimsAfter then some '~' else u.getLast? := by
  obtain ⟨before, after, raw⟩ := m
  cases after with
  | true => exact List.getLast?_concat
  | false => exact congrArg List.getLast? (List.append_nil u)

/-- Whether a text begins with neither white space nor a marker. -/
abbrev Unmarked (cs : Text) : Prop :=
  Text.Stops (fun c => isBlank c || c == '~' || c == '&') cs

theorem stripStart_cons (x : Char) (cs : Text) : stripStart x (x :: cs) = (cs, true) := by
  simp [stripStart]

theorem stripStart_of_head? {x : Char} {cs : Text} (h : cs.head? ≠ some x) :
    stripStart x cs = (cs, false) := by
  cases cs with
  | nil => rfl
  | cons c cs =>
      have hc : c ≠ x := by simpa using h
      simp [stripStart, hc]

theorem stripEnd_append {t : Text} (ht : t ≠ []) (x : Char) (s : Text) :
    stripEnd x (s ++ t) = (s ++ (stripEnd x t).1, (stripEnd x t).2) := by
  obtain hnil | ⟨u, c, rfl⟩ := List.eq_nil_or_concat t
  · exact absurd hnil ht
  · by_cases hc : c = x <;> simp [stripEnd, stripStart, hc]

/-- Stripping at the end reaches no further than a character other than the marker. -/
theorem stripEnd_append_cons {x d : Char} (hd : d ≠ x) (s t : Text) :
    stripEnd x (s ++ d :: t) = (s ++ d :: (stripEnd x t).1, (stripEnd x t).2) := by
  by_cases ht : t = []
  · simp [ht, stripEnd, stripStart, hd]
  · have happend := stripEnd_append ht x (s ++ [d])
    simpa only [List.append_assoc, List.singleton_append] using happend

theorem stripEnd_append_singleton (x : Char) (cs : Text) : stripEnd x (cs ++ [x]) = (cs, true) := by
  simp [stripEnd, stripStart]

theorem stripEnd_of_getLast? {x : Char} {cs : Text} (h : cs.getLast? ≠ some x) :
    stripEnd x cs = (cs, false) := by
  have hhead : cs.reverse.head? ≠ some x := by simpa using h
  simp [stripEnd, stripStart_of_head? hhead]

theorem stripEnd_snd (x : Char) (cs : Text) : (stripEnd x cs).2 = (cs.getLast? == some x) := by
  obtain rfl | ⟨u, c, rfl⟩ := List.eq_nil_or_concat cs
  · rfl
  · by_cases hc : c = x <;> simp [stripEnd, stripStart, hc]

theorem isPrefix_stripEnd (x : Char) (cs : Text) : (stripEnd x cs).1 <+: cs := by
  obtain rfl | ⟨u, c, rfl⟩ := List.eq_nil_or_concat cs
  · exact List.prefix_refl _
  · by_cases hc : c = x <;> simp [stripEnd, stripStart, hc]

/-- Markers before a text are stripped with the white space after them, and of the text itself at
most a tilde at its end, together with the white space before it. -/
theorem strip_lead_blank_append (m : Markers) {w s : Text} {d : Char} {t : Text}
    (hw : w.all isBlank = true) (hs : Unmarked (s ++ [d])) (hd : isBlank d = false)
    (hd' : d ≠ '~') :
    strip (m.lead ++ (w ++ (s ++ d :: t))) =
      (s ++ d :: Text.trimEnd (stripEnd '~' t).1,
        ⟨m.trimsBefore, (stripEnd '~' t).2, m.raw⟩) := by
  obtain ⟨before, after, raw⟩ := m
  -- The text and whatever is left of it at the end begin with the same character.
  obtain ⟨c, hblank, htilde, hand, hc⟩ : ∃ c, isBlank c = false ∧ c ≠ '~' ∧ c ≠ '&' ∧
      ∀ u, ∃ v, s ++ d :: u = c :: v := by
    cases s with
    | nil =>
        simp only [List.nil_append, Text.stops_cons, Bool.or_eq_false_iff, beq_eq_false_iff_ne]
          at hs
        exact ⟨d, hs.1.1, hs.1.2, hs.2, fun u => ⟨u, rfl⟩⟩
    | cons c s =>
        simp only [List.cons_append, Text.stops_cons, Bool.or_eq_false_iff,
          beq_eq_false_iff_ne] at hs
        exact ⟨c, hs.1.1, hs.1.2, hs.2, fun u => ⟨s ++ d :: u, rfl⟩⟩
  obtain ⟨v, hv⟩ := hc (stripEnd '~' t).1
  have hopened : stripStart '~' (lead ⟨before, after, raw⟩ ++ (w ++ (s ++ d :: t))) =
      ((if raw then ['&'] else []) ++ (w ++ (s ++ d :: t)), before) := by
    cases before with
    | true => simp [lead, stripStart]
    | false =>
        apply stripStart_of_head?
        obtain ⟨u, hu⟩ := hc t
        cases raw with
        | true => simp [lead]
        | false =>
            cases w with
            | nil => simp [lead, hu, htilde]
            | cons b w =>
                intro hb
                have hb' : b = '~' := by simpa [lead] using hb
                simp [hb', isBlank] at hw
  have hclosed : stripEnd '~' ((if raw then ['&'] else []) ++ (w ++ (s ++ d :: t))) =
      ((if raw then ['&'] else []) ++ (w ++ (s ++ d :: (stripEnd '~' t).1)),
        (stripEnd '~' t).2) := by
    rw [← List.append_assoc w, ← List.append_assoc, stripEnd_append_cons hd', List.append_assoc,
      List.append_assoc]
  have hescaped : stripStart '&' (Text.trimStart ((if raw then ['&'] else []) ++
      (w ++ (s ++ d :: (stripEnd '~' t).1)))) =
        ((if raw then w else []) ++ (s ++ d :: (stripEnd '~' t).1), raw) := by
    cases raw with
    | true => exact stripStart_cons _ _
    | false =>
        have hstart : Text.Stops isBlank (s ++ d :: (stripEnd '~' t).1) := by
          rw [hv]
          exact Text.stops_cons.2 hblank
        simp only [Bool.false_eq_true, if_false, List.nil_append, Text.trimStart_append hw,
          Text.trimStart_eq_self hstart]
        apply stripStart_of_head?
        simp [hv, hand]
  have hend : Text.trim ((if raw then w else []) ++ (s ++ d :: (stripEnd '~' t).1)) =
      s ++ d :: Text.trimEnd (stripEnd '~' t).1 := by
    have hgap : (if raw then w else []).all isBlank = true := by
      cases raw with
      | true => exact hw
      | false => rfl
    rw [Text.trim, Text.trimStart_append hgap, Text.trimStart_eq_self,
      Text.trimEnd_append_cons _ hd]
    rw [hv]
    exact Text.stops_cons.2 hblank
  simp only [strip, hopened, hclosed, hescaped, hend]

theorem strip_lead_append (m : Markers) {s : Text} {d : Char} {t : Text}
    (hs : Unmarked (s ++ [d])) (hd : isBlank d = false) (hd' : d ≠ '~') :
    strip (m.lead ++ (s ++ d :: t)) =
      (s ++ d :: Text.trimEnd (stripEnd '~' t).1,
        ⟨m.trimsBefore, (stripEnd '~' t).2, m.raw⟩) :=
  strip_lead_blank_append m (w := []) rfl hs hd hd'

theorem trim_lead_append (m : Markers) {s : Text} {d : Char} (t : Text)
    (hs : Unmarked (s ++ [d])) (hd : isBlank d = false) :
    Text.trim (m.lead ++ (s ++ d :: t)) = m.lead ++ (s ++ d :: Text.trimEnd t) := by
  have hstart : Text.Stops isBlank (m.lead ++ (s ++ d :: t)) := by
    have htilde : isBlank '~' = false := rfl
    have hamp : isBlank '&' = false := rfl
    obtain ⟨before, after, raw⟩ := m
    cases before with
    | true => simp [lead, htilde]
    | false =>
        cases raw with
        | true => simp [lead, hamp]
        | false =>
            cases s with
            | nil => simpa [lead] using hd
            | cons c s =>
                simp only [List.cons_append, Text.stops_cons, Bool.or_eq_false_iff] at hs
                simpa [lead] using hs.1.1
  rw [Text.trim, Text.trimStart_eq_self hstart, ← List.append_assoc,
    Text.trimEnd_append_cons _ hd, List.append_assoc]

/-- A text that neither begins nor ends with white space or a marker has no markers. -/
theorem strip_eq_self {cs : Text} (hne : cs ≠ []) (hs : Unmarked cs)
    (he : ∀ c ∈ cs.getLast?, isBlank c = false ∧ c ≠ '~') :
    Text.trim cs = cs ∧ strip cs = (cs, ⟨false, false, false⟩) := by
  obtain hnil | ⟨s, d, h⟩ := List.eq_nil_or_concat cs
  · exact absurd hnil hne
  · rw [List.concat_eq_append] at h
    obtain ⟨hblank, htilde⟩ := he d (by rw [h, List.getLast?_concat]; rfl)
    rw [h] at hs ⊢
    exact ⟨trim_lead_append ⟨false, false, false⟩ [] hs hblank,
      strip_lead_append ⟨false, false, false⟩ hs hblank htilde⟩

/-- The text without markers holds only characters of the tag's text. -/
theorem mem_of_mem_strip {c : Char} {body : Text} (h : c ∈ (strip body).1) : c ∈ body := by
  have hstart : ∀ (x : Char) (cs : Text), ∀ c ∈ (stripStart x cs).1, c ∈ cs := by
    intro x cs c hc
    cases cs with
    | nil => exact hc
    | cons d cs =>
        simp only [stripStart] at hc
        split at hc
        · exact List.mem_cons_of_mem d hc
        · exact hc
  have hescaped := hstart _ _ c (Text.mem_of_mem_trim h)
  have hclosed := (List.dropWhile_sublist isBlank).subset hescaped
  exact hstart _ _ c ((isPrefix_stripEnd _ _).subset hclosed)

/-- The text of a tag without markers ends with a tilde only if another one was stripped. -/
theorem getLast?_strip {body : Text} (hbody : ∀ c ∈ body.getLast?, isBlank c = false)
    (h : (strip body).2.trimsAfter = false) : (strip body).1.getLast? ≠ some '~' := by
  have hsuffix : ∀ (x : Char) (cs : Text), (stripStart x cs).1 <:+ cs := by
    intro x cs
    cases cs with
    | nil => exact List.suffix_refl _
    | cons c cs =>
        simp only [stripStart]
        split
        · exact List.suffix_cons c cs
        · exact List.suffix_refl _
  have hopened := hsuffix '~' body
  simp only [strip] at h ⊢
  generalize (stripStart '~' body).1 = opened at h hopened ⊢
  by_cases hlast : opened.getLast? = some '~'
  · obtain hnil | ⟨u, c, hu⟩ := List.eq_nil_or_concat opened
    · simp [hnil] at hlast
    · rw [List.concat_eq_append] at hu
      have hc : c = '~' := by simpa [hu] using hlast
      rw [hu, hc, stripEnd_append_singleton] at h
      simp at h
  · rw [stripEnd_of_getLast? hlast]
    have hescaped := hsuffix '&' (Text.trimStart opened)
    have hstart : Text.trimStart (stripStart '&' (Text.trimStart opened)).1 <:+ opened :=
      (List.dropWhile_suffix isBlank).trans (hescaped.trans (List.dropWhile_suffix isBlank))
    have hend : Text.trimEnd (Text.trimStart (stripStart '&' (Text.trimStart opened)).1) =
        Text.trimStart (stripStart '&' (Text.trimStart opened)).1 := by
      apply Text.trimEnd_eq_self
      intro c hc
      refine hbody c ?_
      rw [← Text.getLast?_eq_of_suffix (hstart.trans hopened) (by rintro h; simp [h] at hc)]
      exact hc
    rw [Text.trim, hend]
    intro hcontra
    rw [Text.getLast?_eq_of_suffix hstart (by rintro h; simp [h] at hcontra)] at hcontra
    exact hlast hcontra

end Markers

namespace Expression

/-- The helper of a helper call. -/
def helper? : Expression → Option Text
  | empty => none
  | path _ => none
  | onContext helper _ => some helper
  | onPath helper _ _ => some helper

theorem ofTokens_eq_path {widgets ts : List Text} {p : Text}
    (h : ofTokens widgets ts = path p) : ts = [p] := by
  unfold ofTokens at h
  split at h
  · simp at h
  · split at h
    · simp at h
    · simpa using h
  · split at h <;> simp at h

theorem ofTokens_eq_onContext {widgets ts : List Text} {helper : Text} {arguments : Option Text}
    (h : ofTokens widgets ts = onContext helper arguments) :
    ∃ rest, ts = helper :: rest ∧ arguments.getD [] = Text.joinSpaced rest ∧
      ∀ t ∈ rest.head?, isPairShaped t = true := by
  unfold ofTokens at h
  split at h
  · simp at h
  · split at h
    · simp only [onContext.injEq] at h
      obtain ⟨rfl, rfl⟩ := h
      exact ⟨[], rfl, rfl, by simp⟩
    · simp at h
  · rename_i t second rest
    split at h
    · rename_i hpair
      simp only [onContext.injEq] at h
      obtain ⟨rfl, rfl⟩ := h
      exact ⟨second :: rest, rfl, rfl, by simpa using hpair⟩
    · simp at h

theorem ofTokens_eq_onPath {widgets ts : List Text} {helper p : Text} {arguments : Option Text}
    (h : ofTokens widgets ts = onPath helper p arguments) :
    ∃ rest, ts = helper :: p :: rest ∧ arguments.getD [] = Text.joinSpaced rest ∧
      isPairShaped p = false := by
  unfold ofTokens at h
  split at h
  · simp at h
  · split at h <;> simp at h
  · rename_i t second rest
    split at h
    · simp at h
    · rename_i hpair
      simp only [onPath.injEq] at h
      obtain ⟨rfl, rfl, rfl⟩ := h
      refine ⟨rest, rfl, ?_, by simpa using hpair⟩
      cases rest <;> rfl

theorem ofTokens_cons_cons (widgets rest : List Text) (helper : Text) {p : Text}
    (hp : isPairShaped p = false) :
    ∃ arguments, ofTokens widgets (helper :: p :: rest) = onPath helper p arguments ∧
      arguments.getD [] = Text.joinSpaced rest := by
  refine ⟨if rest = [] then none else some (Text.joinSpaced rest), ?_, ?_⟩
  · simp [ofTokens, hp]
  · cases rest <;> rfl

end Expression

/-- The tokens after a helper and its path, as they stand in the text. -/
theorem exists_rest_of_ofTokens {widgets : List Text} {cs helper p : Text}
    {arguments : Option Text}
    (h : Expression.ofTokens widgets (tokenize cs) = .onPath helper p arguments) :
    ∃ u r, cs = u ++ (p ++ r) ∧ arguments.getD [] = Text.joinSpaced (tokenize r) := by
  obtain ⟨rest, htokens, harguments, hpair⟩ := Expression.ofTokens_eq_onPath h
  obtain ⟨w, l, r, t, rfl, -, -, -, hr⟩ := tokenize_eq_cons htokens
  obtain ⟨w', l', r', t', rfl, -, hlex, rfl, hr'⟩ := tokenize_eq_cons hr
  cases hlex with
  | pair hkey hw hw' hne hvalue =>
      rw [isPairShaped, Token.text, Token.pairKey?_append hkey] at hpair
      simp at hpair
  | other hne hkey => exact ⟨w ++ (l ++ w'), r', by simp, by rw [harguments, hr']⟩

/-- What keeps a path from being looked up, and the look-up of any other path. -/
theorem pathUse_eq_lookUp {o : Options} {p : Text} {arguments : Option Text} {call : LookUp}
    (h : pathUse o p arguments = .lookUp call) :
    isGroup p = false ∧ isRelative p = false ∧ isContextPath p = false ∧
      p ∉ o.reservedWords ∧ Text.isLiteral p = false ∧
      call = ⟨p, (tokenize (arguments.getD [])).filter isPairShaped,
        (tokenize (arguments.getD [])).filter fun t => !isPairShaped t⟩ := by
  simp only [pathUse] at h
  split at h
  · simp at h
  · rename_i hgroup
    split at h
    · simp at h
    · rename_i hcontext
      split at h
      · simp at h
      · rename_i hreserved
        split at h
        · simp at h
        · rename_i hliteral
          split at h
          · simp at h
          · simp only [Bool.or_eq_true, not_or, Bool.not_eq_true] at hgroup
            simp only [PathUse.lookUp.injEq] at h
            exact ⟨hgroup.1, hgroup.2, by simpa using hcontext, by simpa using hreserved,
              by simpa using hliteral, h.symm⟩

/-- A look-up holds the path and the tokens of the arguments. -/
theorem lookUp_eq_of_pathUse {o : Options} {p : Text} {arguments : Option Text} {call : LookUp}
    (h : pathUse o p arguments = .lookUp call) :
    call.path = p ∧ call.pairs = (tokenize (arguments.getD [])).filter isPairShaped ∧
      call.positional = (tokenize (arguments.getD [])).filter fun t => !isPairShaped t := by
  obtain ⟨-, -, -, -, -, rfl⟩ := pathUse_eq_lookUp h
  exact ⟨rfl, rfl, rfl⟩

/-- Without pairs, the positional arguments are all of them. -/
theorem positional_eq_tokenize {o : Options} {p : Text} {arguments : Option Text} {call : LookUp}
    (h : pathUse o p arguments = .lookUp call) (hpairs : call.pairs = []) :
    call.positional = tokenize (arguments.getD []) := by
  obtain ⟨-, hnone, hpositional⟩ := lookUp_eq_of_pathUse h
  rw [hpairs] at hnone
  rw [hpositional, List.filter_eq_self]
  intro t ht
  simpa using List.filter_eq_nil_iff.1 hnone.symm t ht

theorem pathUse_contextWord (o : Options) (arguments : Option Text) :
    pathUse o contextWord arguments = .keep .explicitThis := rfl

theorem pathUse_of_isGroup (o : Options) {p : Text} (arguments : Option Text)
    (h : isGroup p = true) : pathUse o p arguments = .keep .subexpressionOrRelative := by
  simp [pathUse, h]

/-- Whether a tag's text opens a block. -/
def opensBlock : Text → Bool
  | '#' :: _ => true
  | '^' :: _ => true
  | _ => false

/-- The expression that a tag's text without markers is read as. The sign that opens a block and the
clause for block parameters are left out. -/
def expressionOf (o : Options) : Text → Expression
  | '#' :: text => .ofTokens o.widgetHelpers (tokenize (splitBlockClause text).1)
  | '^' :: text => .ofTokens o.widgetHelpers (tokenize (splitBlockClause text).1)
  | text => .ofTokens o.widgetHelpers (tokenize text)

theorem opensBlock_eq_false {text : Text} (hhash : ∀ u, text ≠ '#' :: u)
    (hcaret : ∀ u, text ≠ '^' :: u) : opensBlock text = false := by
  unfold opensBlock
  split
  · rename_i u
    exact absurd rfl (hhash u)
  · rename_i u
    exact absurd rfl (hcaret u)
  · rfl

theorem expressionOf_of_opensBlock_eq_false {o : Options} {text : Text}
    (h : opensBlock text = false) :
    expressionOf o text = .ofTokens o.widgetHelpers (tokenize text) := by
  unfold expressionOf
  split
  · simp [opensBlock] at h
  · simp [opensBlock] at h
  · rfl

theorem expressionOf_cons {o : Options} {sign : Char} (hsign : sign = '#' ∨ sign = '^')
    (text : Text) :
    expressionOf o (sign :: text) =
      .ofTokens o.widgetHelpers (tokenize (splitBlockClause text).1) := by
  obtain rfl | rfl := hsign <;> rfl

/-- The four shapes in which the text of a tag, taken without its markers, is rewritten. -/
inductive Rewritten (o : Options) (m : Markers) : Text → Text → Prop
  | path {text p : Text} {call : LookUp} (hplain : opensBlock text = false)
      (hread : expressionOf o text = .path p) (huse : pathUse o p none = .lookUp call) :
      Rewritten o m text (m.wrap [o.accessor, contextWord, call.literal])
  | onContext {text helper : Text} {arguments : Option Text} (hplain : opensBlock text = false)
      (hread : expressionOf o text = .onContext helper arguments) :
      Rewritten o m text (m.wrap [helper, contextWord, arguments.getD []])
  | onPath {text helper p : Text} {arguments : Option Text} {call : LookUp}
      (hplain : opensBlock text = false)
      (hread : expressionOf o text = .onPath helper p arguments)
      (huse : pathUse o p arguments = .lookUp call) :
      Rewritten o m text (m.wrap [helper, call.group o.accessor, call.helperArguments])
  | block {sign : Char} {text helper p : Text} {arguments : Option Text} {call : LookUp}
      (hsign : sign = '#' ∨ sign = '^')
      (hread : expressionOf o (sign :: text) = .onPath helper p arguments)
      (huse : pathUse o p arguments = .lookUp call) :
      Rewritten o m (sign :: text) (m.wrap [sign :: helper, call.group o.accessor,
        call.helperArguments, (splitBlockClause text).2.getD []])

theorem Rewritten.exists_braced {o : Options} {m : Markers} {text new : Text}
    (h : Rewritten o m text new) : ∃ inner, new = braced inner := by
  cases h with
  | path hplain hread huse => exact ⟨_, rfl⟩
  | onContext hplain hread => exact ⟨_, rfl⟩
  | onPath hplain hread huse => exact ⟨_, rfl⟩
  | block hsign hread huse => exact ⟨_, rfl⟩

theorem rewritten_of_ofBlock_eq_rewrite {o : Options} {m : Markers} {sign : Char} {text new : Text}
    (hsign : sign = '#' ∨ sign = '^') (h : Decision.ofBlock o m sign text = .rewrite new) :
    Rewritten o m (sign :: text) new := by
  have hread := expressionOf_cons (o := o) hsign text
  simp only [Decision.ofBlock] at h
  split at h
  · simp at h
  · simp at h
  · simp [pathUse_contextWord] at h
  · rename_i helper p arguments he
    cases huse : pathUse o p arguments with
    | keep reason => simp [huse] at h
    | lookUp call =>
        simp only [huse, Decision.rewrite.injEq] at h
        rw [← h]
        exact .block hsign (hread.trans he) huse

theorem rewritten_of_ofExpression_eq_rewrite {o : Options} {m : Markers} {text new : Text}
    (hplain : opensBlock text = false) (h : Decision.ofExpression o m text = .rewrite new) :
    Rewritten o m text new := by
  have hread := expressionOf_of_opensBlock_eq_false (o := o) hplain
  simp only [Decision.ofExpression] at h
  split at h
  · simp at h
  · rename_i p he
    cases huse : pathUse o p none with
    | keep reason => simp [huse] at h
    | lookUp call =>
        simp only [huse, Decision.rewrite.injEq] at h
        rw [← h]
        exact .path hplain (hread.trans he) huse
  · rename_i helper arguments he
    simp only [Decision.rewrite.injEq] at h
    rw [← h]
    exact .onContext hplain (hread.trans he)
  · rename_i helper p arguments he
    cases huse : pathUse o p arguments with
    | keep reason => simp [huse] at h
    | lookUp call =>
        simp only [huse, Decision.rewrite.injEq] at h
        rw [← h]
        exact .onPath hplain (hread.trans he) huse

theorem ofBody_eq_ofExpression {o : Options} {body : Text}
    (hcontrol : isControl (Markers.strip body).1 = false)
    (hplain : opensBlock (Markers.strip body).1 = false) :
    Decision.ofBody o body =
      Decision.ofExpression o (Markers.strip body).2 (Markers.strip body).1 := by
  rw [Decision.ofBody, if_neg (by simp [hcontrol])]
  split
  · rename_i htext
    simp [htext, opensBlock] at hplain
  · rename_i htext
    simp [htext, opensBlock] at hplain
  · rfl

/-- Every rewritten tag is rewritten in one of the four shapes. -/
theorem rewritten_of_ofBody_eq_rewrite {o : Options} {body new : Text}
    (h : Decision.ofBody o body = .rewrite new) :
    isControl (Markers.strip body).1 = false ∧
      Rewritten o (Markers.strip body).2 (Markers.strip body).1 new := by
  simp only [Decision.ofBody] at h
  split at h
  · simp at h
  · rename_i hcontrol
    refine ⟨by simpa using hcontrol, ?_⟩
    split at h
    · rename_i text htext
      rw [htext]
      exact rewritten_of_ofBlock_eq_rewrite (Or.inl rfl) h
    · rename_i text htext
      rw [htext]
      exact rewritten_of_ofBlock_eq_rewrite (Or.inr rfl) h
    · rename_i text hhash hcaret
      exact rewritten_of_ofExpression_eq_rewrite (opensBlock_eq_false hhash hcaret) h

/-- A helper on a path is rewritten exactly if the accessor looks the path up. -/
theorem isRewrite_ofBody_iff {o : Options} {body helper p : Text} {arguments : Option Text}
    (hcontrol : isControl (Markers.strip body).1 = false)
    (hread : expressionOf o (Markers.strip body).1 = .onPath helper p arguments) :
    (∃ new, Decision.ofBody o body = .rewrite new) ↔
      ∃ call, pathUse o p arguments = .lookUp call := by
  constructor
  · rintro ⟨new, hnew⟩
    obtain ⟨-, hrewritten⟩ := rewritten_of_ofBody_eq_rewrite hnew
    generalize (Markers.strip body).1 = text at hread hrewritten
    cases hrewritten with
    | path hplain hread' huse => simp [hread] at hread'
    | onContext hplain hread' => simp [hread] at hread'
    | onPath hplain hread' huse =>
        simp only [hread, Expression.onPath.injEq] at hread'
        obtain ⟨-, rfl, rfl⟩ := hread'
        exact ⟨_, huse⟩
    | block hsign hread' huse =>
        simp only [hread, Expression.onPath.injEq] at hread'
        obtain ⟨-, rfl, rfl⟩ := hread'
        exact ⟨_, huse⟩
  · rintro ⟨call, hcall⟩
    simp only [Decision.ofBody, hcontrol, Bool.false_eq_true, if_false]
    split
    · rename_i text htext
      rw [htext, expressionOf_cons (Or.inl rfl)] at hread
      simp [Decision.ofBlock, hread, hcall]
    · rename_i text htext
      rw [htext, expressionOf_cons (Or.inr rfl)] at hread
      simp [Decision.ofBlock, hread, hcall]
    · rename_i text hhash hcaret
      rw [expressionOf_of_opensBlock_eq_false (opensBlock_eq_false hhash hcaret)] at hread
      simp [Decision.ofExpression, hread, hcall]

/-- A lone path is rewritten exactly if the accessor looks it up. -/
theorem isRewrite_ofBody_path_iff {o : Options} {body p : Text}
    (hcontrol : isControl (Markers.strip body).1 = false)
    (hplain : opensBlock (Markers.strip body).1 = false)
    (hread : expressionOf o (Markers.strip body).1 = .path p) :
    (∃ new, Decision.ofBody o body = .rewrite new) ↔ ∃ call, pathUse o p none = .lookUp call := by
  rw [expressionOf_of_opensBlock_eq_false hplain] at hread
  rw [ofBody_eq_ofExpression hcontrol hplain]
  cases huse : pathUse o p none with
  | keep reason => simp [Decision.ofExpression, hread, huse]
  | lookUp call => simp [Decision.ofExpression, hread, huse]

/-- A helper whose path is kept in any case is not rewritten, as long as the helper and the path are
the first tokens. -/
theorem replacement_ofBody_eq_none {o : Options} {body p : Text}
    (hread : ∃ helper arguments,
      expressionOf o (Markers.strip body).1 = .onPath helper p arguments)
    (hkeep : ∀ arguments call, pathUse o p arguments ≠ .lookUp call) :
    (Decision.ofBody o body).replacement = none := by
  cases hbody : Decision.ofBody o body with
  | control => rfl
  | leave reason => rfl
  | invalid reason => rfl
  | rewrite new =>
      obtain ⟨helper, arguments, hread⟩ := hread
      obtain ⟨-, hrewritten⟩ := rewritten_of_ofBody_eq_rewrite hbody
      generalize (Markers.strip body).1 = text at hread hrewritten
      cases hrewritten with
      | path hplain hread' huse => simp [hread] at hread'
      | onContext hplain hread' => simp [hread] at hread'
      | onPath hplain hread' huse =>
          simp only [hread, Expression.onPath.injEq] at hread'
          obtain ⟨-, rfl, -⟩ := hread'
          exact absurd huse (hkeep _ _)
      | block hsign hread' huse =>
          simp only [hread, Expression.onPath.injEq] at hread'
          obtain ⟨-, rfl, -⟩ := hread'
          exact absurd huse (hkeep _ _)

theorem tagOutput_eq_braced {o : Options} {inner : Text}
    (h : (Decision.ofBody o (Text.trim inner)).replacement = none) :
    tagOutput o inner = braced inner := by
  simp [tagOutput, Decision.output_eq_getD, h]

/-- The output of a tag stands between braces, as a tag does. -/
theorem exists_tagOutput_eq_braced (o : Options) (inner : Text) :
    ∃ new, tagOutput o inner = braced new := by
  cases hbody : Decision.ofBody o (Text.trim inner) with
  | control => exact ⟨inner, tagOutput_eq_braced (by rw [hbody]; rfl)⟩
  | leave reason => exact ⟨inner, tagOutput_eq_braced (by rw [hbody]; rfl)⟩
  | invalid reason => exact ⟨inner, tagOutput_eq_braced (by rw [hbody]; rfl)⟩
  | rewrite text =>
      have hout : tagOutput o inner = text := by rw [tagOutput, hbody]; rfl
      rw [hout]
      exact (rewritten_of_ofBody_eq_rewrite hbody).2.exists_braced

theorem tagOutput_of_isControl {o : Options} {inner : Text}
    (h : isControl (Markers.strip (Text.trim inner)).1 = true) :
    tagOutput o inner = braced inner := by
  apply tagOutput_eq_braced
  simp [Decision.ofBody, h, Decision.replacement]

@[simp] theorem tagOutput_nil (o : Options) : tagOutput o [] = braced [] := by
  apply tagOutput_eq_braced
  have hbody : Decision.ofBody o (Text.trim []) = .leave .empty := by
    have hstrip : Markers.strip (Text.trim []) = ([], ⟨false, false, false⟩) := rfl
    simp [Decision.ofBody, hstrip, isControl, Decision.ofExpression, tokenize_nil,
      Expression.ofTokens]
  rw [hbody]
  rfl

/-- Block comments are control tags. -/
theorem isControl_of_opensComment {inner : Text} (h : OpensComment inner) :
    isControl (Markers.strip (Text.trim inner)).1 = true := by
  have hmark : Markers.Unmarked ([] ++ ['!']) := Text.stops_cons.2 rfl
  have hstrip : ∀ (m : Markers) (t : Text),
      isControl (Markers.strip (Text.trim (m.lead ++ ([] ++ '!' :: t)))).1 = true := by
    intro m t
    rw [Markers.trim_lead_append m t hmark rfl, Markers.strip_lead_append m hmark rfl (by decide)]
    rfl
  obtain ⟨j, rfl⟩ | ⟨j, rfl⟩ := h
  · exact hstrip ⟨false, false, false⟩ ('-' :: '-' :: j)
  · exact hstrip ⟨true, false, false⟩ ('-' :: '-' :: j)

theorem tagOutput_of_opensComment {o : Options} {inner : Text} (h : OpensComment inner) :
    tagOutput o inner = braced inner :=
  tagOutput_of_isControl (isControl_of_opensComment h)

end MustachePath
