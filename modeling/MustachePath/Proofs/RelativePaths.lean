import MustachePath.Proofs.Calls

/-!
# Relative paths stay

A path that starts from the current or from an enclosing context is a run of characters up to the
next white space, and it is kept whatever arguments stand beside it. The enclosing context by
itself, written as two dots, is the exception: it is looked up unless it is a reserved word
(`isRewrite_relativeTag`).
-/

namespace MustachePath

/-- A path that starts from the current context or, by two dots, from the enclosing one. -/
structure RelativePath where
  text : Text
  starts : text = ['.'] ∨ text = ['.', '.'] ∨ ['.', '/'] <+: text ∨ ['.', '.', '/'] <+: text
  nonblank : ∀ c ∈ text, isBlank c = false
  getLast?_ne : text.getLast? ≠ some '~'

/-- The helper in front of a path, with the sign of a block if there is one, and the further
arguments behind the path. -/
structure CallAround where
  sign : Text
  helper : Name
  gap : Text
  rest : Text
  isSign : sign = [] ∨ sign = ['#'] ∨ sign = ['^']
  gap_ne_nil : gap ≠ []
  gap_blank : gap.all isBlank = true
  rest_breaks : rest.Breaks

/-- A tag with a relative path, alone or as the first argument of a helper or a block. -/
inductive RelativeTag where
  | alone (path : RelativePath)
  | argument (path : RelativePath) (call : CallAround)

namespace RelativeTag

/-- The path of the tag. -/
def path : RelativeTag → RelativePath
  | alone p => p
  | argument p _ => p

/-- What stands before the path. -/
def front : RelativeTag → Text
  | alone _ => []
  | argument _ call => call.sign ++ (call.helper.text ++ call.gap)

/-- What stands behind the path. -/
def back : RelativeTag → Text
  | alone _ => []
  | argument _ call => call.rest

/-- The tag's text without markers. -/
def text (x : RelativeTag) : Text := x.front ++ (x.path.text ++ x.back)

/-- Whether the tag is a lone path that is a widget helper too. -/
def IsWidget (o : Options) : RelativeTag → Prop
  | alone p => p.text ∈ o.widgetHelpers
  | argument _ _ => False

/-- Whether the tag is a control tag: its helper is the word `else` and opens no block. -/
def IsElse : RelativeTag → Prop
  | alone _ => False
  | argument _ call => call.sign = [] ∧ call.helper.text = ['e', 'l', 's', 'e']

end RelativeTag

theorem isRelative_of_isPrefix {p : Text} (h : ['.', '/'] <+: p ∨ ['.', '.', '/'] <+: p) :
    isRelative p = true := by
  rw [isRelative, Bool.or_eq_true]
  obtain ⟨u, h⟩ | ⟨u, h⟩ := h
  · right
    rw [Text.startsWith, Text.afterPrefix?_eq_some_iff.2 h.symm]
    rfl
  · left
    rw [Text.startsWith, Text.afterPrefix?_eq_some_iff.2 h.symm]
    rfl

namespace RelativePath

variable (p : RelativePath)

theorem exists_eq_cons : ∃ u, p.text = '.' :: u := by
  obtain h | h | ⟨u, h⟩ | ⟨u, h⟩ := p.starts
  · exact ⟨_, h⟩
  · exact ⟨_, h⟩
  · exact ⟨_, h.symm⟩
  · exact ⟨_, h.symm⟩

/-- A relative path ends with a character that is no marker and no white space. -/
theorem exists_eq_concat : ∃ s d, p.text = s ++ [d] ∧ isBlank d = false ∧ d ≠ '~' := by
  obtain ⟨u, hu⟩ := p.exists_eq_cons
  obtain hnil | ⟨s, d, h⟩ := List.eq_nil_or_concat p.text
  · simp [hnil] at hu
  · rw [List.concat_eq_append] at h
    refine ⟨s, d, h, p.nonblank d (by simp [h]), ?_⟩
    rintro rfl
    exact p.getLast?_ne (by rw [h, List.getLast?_concat])

theorem isPairShaped_text : isPairShaped p.text = false := by
  obtain ⟨u, hu⟩ := p.exists_eq_cons
  have hstops : Text.Stops isNameChar p.text := by
    rw [hu]
    exact Text.stops_cons.2 (by decide)
  rw [isPairShaped, Token.pairKey?_eq_none_of_stops hstops]
  rfl

/-- A relative path is a token of its own. -/
theorem tokenize_text_append {rest : Text} (hrest : rest.Breaks) :
    tokenize (p.text ++ rest) = p.text :: tokenize rest := by
  obtain ⟨u, hu⟩ := p.exists_eq_cons
  have hrun : Token.readRun? (p.text ++ rest) = some (p.text, rest) := by
    apply Token.readWhile?_append _ _ hrest
    · rw [hu]
      exact List.cons_ne_nil _ _
    · intro c hc
      simp [p.nonblank c hc]
  have hread : Token.read? (p.text ++ rest) = some (.run p.text, rest) := by
    rw [hu, List.cons_append] at hrun ⊢
    have hstops : Text.Stops isNameChar ('.' :: (u ++ rest)) := Text.stops_cons.2 (by decide)
    have hpath : Token.readPath? ('.' :: (u ++ rest)) = none :=
      Token.readPath?_eq_none_iff.2 ⟨hstops, rfl⟩
    have hgroup : Token.readGroup? ('.' :: (u ++ rest)) = none := rfl
    have hquoted : Token.readQuoted? ('.' :: (u ++ rest)) = none := rfl
    rw [Token.read?, Token.readPair?_eq_none_of_stops hstops, hpath, hgroup, hquoted, hrun]
    rfl
  have hblank : Text.Stops isBlank (p.text ++ rest) := by
    rw [hu]
    exact Text.stops_cons.2 rfl
  exact tokenize_of_read? hblank hread

/-- Of the relative paths only the two dots alone can be looked up, if they are no reserved word. -/
theorem exists_lookUp_iff (o : Options) (arguments : Option Text) :
    (∃ call, pathUse o p.text arguments = .lookUp call) ↔
      p.text = ['.', '.'] ∧ ['.', '.'] ∉ o.reservedWords := by
  constructor
  · rintro ⟨call, h⟩
    obtain ⟨-, hrelative, hcontext, hreserved, -⟩ := pathUse_eq_lookUp h
    obtain hdot | hdots | hprefix := p.starts
    · rw [hdot] at hcontext
      exact absurd hcontext (by decide)
    · rw [hdots] at hreserved
      exact ⟨hdots, hreserved⟩
    · rw [isRelative_of_isPrefix hprefix] at hrelative
      exact absurd hrelative (by decide)
  · rintro ⟨hdots, hreserved⟩
    have heligible : Eligible o ['.', '.'] := ⟨rfl, rfl, rfl, hreserved, rfl⟩
    have hnative : isNative ['.', '.'] = false := by decide +kernel
    rw [hdots, pathUse_of_eligible heligible rfl,
      if_neg fun h => absurd h.1 (by simp [hnative])]
    exact ⟨_, rfl⟩

end RelativePath

namespace CallAround

variable (call : CallAround) (p : RelativePath)

theorem breaks_gap_append (rest : Text) : (call.gap ++ rest).Breaks := by
  have hblank := call.gap_blank
  obtain ⟨b, gap, hgap⟩ := List.exists_cons_of_ne_nil call.gap_ne_nil
  rw [hgap, List.all_cons, Bool.and_eq_true] at hblank
  rw [hgap]
  exact Text.stops_cons.2 (by simp [hblank.1])

theorem tokenize_helper_append {rest : Text} (hrest : rest.Breaks) :
    tokenize (call.helper.text ++ (call.gap ++ (p.text ++ rest))) =
      call.helper.text :: p.text :: tokenize rest := by
  have hequals : Text.Stops (· == '=') (Text.trimStart (call.gap ++ (p.text ++ rest))) := by
    obtain ⟨u, hu⟩ := p.exists_eq_cons
    have hdot : isBlank '.' = false := rfl
    rw [Text.trimStart_append call.gap_blank, hu, List.cons_append,
      Text.trimStart_eq_self (Text.stops_cons.2 hdot)]
    exact Text.stops_cons.2 (by decide)
  rw [tokenize_name_append call.helper.isName (call.breaks_gap_append _) hequals,
    tokenize_append_of_blank call.gap_blank, p.tokenize_text_append hrest]

/-- No clause for block parameters begins before the end of the path. -/
theorem splitBlockClause_helper_append (rest : Text) :
    (splitBlockClause (call.helper.text ++ (call.gap ++ (p.text ++ rest)))).1 =
      call.helper.text ++ (call.gap ++ (p.text ++ (splitBlockClause rest).1)) := by
  have hpath := splitBlockClause_of_nonblank p.nonblank rest
  have hgap : splitBlockClause (call.gap ++ (p.text ++ rest)) =
      (call.gap ++ (splitBlockClause (p.text ++ rest)).1,
        (splitBlockClause (p.text ++ rest)).2) := by
    obtain ⟨u, hu⟩ := p.exists_eq_cons
    rw [hu, List.cons_append]
    exact splitBlockClause_blank_append call.gap_blank rfl (by decide) (u ++ rest)
  rw [splitBlockClause_of_nonblank call.helper.isName.nonblank, hgap, hpath]

end CallAround

theorem breaks_append_blank {s w : Text} (hs : s.Breaks) (hw : w.all isBlank = true) :
    (s ++ w).Breaks := by
  cases s with
  | nil =>
      cases w with
      | nil => exact Text.stops_nil _
      | cons b w =>
          rw [List.all_cons, Bool.and_eq_true] at hw
          exact Text.stops_cons.2 (by simp [hw.1])
  | cons c s => exact Text.stops_cons.2 (Text.stops_cons.1 hs)

theorem breaks_of_isPrefix {s t : Text} (h : s <+: t) (ht : t.Breaks) : s.Breaks := by
  obtain ⟨u, rfl⟩ := h
  cases s with
  | nil => exact Text.stops_nil _
  | cons c s => exact Text.stops_cons.2 (Text.stops_cons.1 ht)

namespace RelativeTag

theorem text_argument (p : RelativePath) (call : CallAround) : (argument p call).text =
    call.sign ++ (call.helper.text ++ (call.gap ++ (p.text ++ call.rest))) := by
  simp [text, front, back, path]

/-- A relative path after a helper is the path that the helper works on. -/
theorem exists_expressionOf_eq (o : Options) (p : RelativePath) (call : CallAround) : ∃ arguments,
    expressionOf o (argument p call).text = .onPath call.helper.text p.text arguments := by
  have htokens : ∃ ts, expressionOf o (argument p call).text =
      .ofTokens o.widgetHelpers (call.helper.text :: p.text :: ts) := by
    rw [text_argument]
    obtain hsign | hsign := call.isSign
    · rw [hsign, List.nil_append,
        expressionOf_of_opensBlock_eq_false (opensBlock_of_isName call.helper.isName),
        call.tokenize_helper_append p call.rest_breaks]
      exact ⟨_, rfl⟩
    · obtain ⟨sign, hsign', hsign⟩ : ∃ sign, (sign = '#' ∨ sign = '^') ∧ call.sign = [sign] :=
        hsign.elim (fun h => ⟨'#', .inl rfl, h⟩) fun h => ⟨'^', .inr rfl, h⟩
      have hrest := breaks_of_isPrefix (isPrefix_splitBlockClause call.rest) call.rest_breaks
      rw [hsign, List.singleton_append, expressionOf_cons hsign',
        call.splitBlockClause_helper_append, call.tokenize_helper_append p hrest]
      exact ⟨_, rfl⟩
  obtain ⟨ts, hts⟩ := htokens
  obtain ⟨arguments, hread, -⟩ :=
    Expression.ofTokens_cons_cons o.widgetHelpers ts call.helper.text p.isPairShaped_text
  exact ⟨arguments, hts.trans hread⟩

variable (x : RelativeTag)

theorem isControl_text : isControl x.text = true ↔ x.IsElse := by
  cases x with
  | alone p =>
      obtain ⟨u, hu⟩ := p.exists_eq_cons
      simp [text, front, back, path, hu, isControl, IsElse]
  | argument p call =>
      have hbreaks := call.breaks_gap_append (p.text ++ call.rest)
      rw [text_argument, IsElse]
      obtain hsign | hsign | hsign := call.isSign
      · rw [hsign, List.nil_append, isControl_name_append call.helper.isName
          (stops_isNameChar_of_breaks hbreaks)]
        simp [hbreaks]
      · simp [hsign, isControl]
      · simp [hsign, isControl]

/-- A tag's text begins with a dot, a sign or a name, and so with no marker. -/
theorem unmarked_text : Markers.Unmarked x.text := by
  cases x with
  | alone p =>
      obtain ⟨u, hu⟩ := p.exists_eq_cons
      change Markers.Unmarked (p.text ++ [])
      rw [hu]
      exact Text.stops_cons.2 (by decide)
  | argument p call =>
      obtain ⟨c, r, hc, hblank, htilde, hand, -⟩ := Markers.leads_of_isName call.helper.isName
      rw [text, front]
      obtain hsign | hsign | hsign := call.isSign
      · rw [hsign, hc]
        exact Text.stops_cons.2 (by simp [hblank, htilde, hand])
      · rw [hsign]
        exact Text.stops_cons.2 (by decide)
      · rw [hsign]
        exact Text.stops_cons.2 (by decide)

/-- Without its markers and the white space around its text a tag has the same form, and perhaps
less text behind the path. -/
theorem exists_strip_eq (m : Markers) {w w' : Text} (hw : w.all isBlank = true)
    (hw' : w'.all isBlank = true) :
    ∃ y : RelativeTag, y.path = x.path ∧ (∀ o, y.IsWidget o ↔ x.IsWidget o) ∧
      (y.IsElse ↔ x.IsElse) ∧
      (Markers.strip (Text.trim (m.lead ++ (w ++ (x.text ++ (w' ++ m.trail)))))).1 = y.text := by
  obtain ⟨s, d, hpath, hd, hd'⟩ := x.path.exists_eq_concat
  have hmark : Markers.Unmarked ((x.front ++ s) ++ [d]) := by
    have htext : x.text = (x.front ++ s) ++ [d] ++ x.back := by
      rw [text, hpath]
      simp
    have hunmarked := x.unmarked_text
    obtain ⟨c, u, hcons⟩ := List.exists_cons_of_ne_nil (l := (x.front ++ s) ++ [d]) (by simp)
    rw [htext, hcons] at hunmarked
    rw [hcons]
    exact Text.stops_cons.2 (Text.stops_cons.1 hunmarked)
  have hshape : x.text ++ (w' ++ m.trail) = (x.front ++ s) ++ d :: ((x.back ++ w') ++ m.trail) := by
    rw [text, hpath]
    simp
  rw [hshape, Markers.strip_trim_lead_append m hw hmark hd hd']
  cases x with
  | alone p =>
      have hback : Markers.reread (((alone p).back ++ w') ++ m.trail) = [] := by
        have hend := Text.trimEnd_of_blank hw'
        rw [back, List.nil_append, Markers.reread_trail (.inr (by simp [hend])), hend]
      refine ⟨alone p, rfl, fun o => Iff.rfl, Iff.rfl, ?_⟩
      rw [hback]
      simpa [text, front, back] using hpath.symm
  | argument p call =>
      obtain ⟨e, he, -⟩ := Markers.exists_eq_reread_append m (call.rest ++ w')
      have hbreaks : (Markers.reread ((call.rest ++ w') ++ m.trail)).Breaks :=
        breaks_of_isPrefix ⟨e, he.symm⟩ (breaks_append_blank call.rest_breaks hw')
      refine ⟨argument p { call with
          rest := Markers.reread ((call.rest ++ w') ++ m.trail), rest_breaks := hbreaks },
        rfl, fun o => Iff.rfl, Iff.rfl, ?_⟩
      change p.text = s ++ [d] at hpath
      simp [text, front, back, path, hpath]

/-- A lone path is read as a path, unless it is a widget helper. -/
theorem expressionOf_alone {o : Options} {p : RelativePath} (h : ¬ (alone p).IsWidget o) :
    opensBlock (alone p).text = false ∧ expressionOf o (alone p).text = .path p.text := by
  have htext : (alone p).text = p.text := List.append_nil p.text
  have hplain : opensBlock p.text = false := by
    obtain ⟨u, hu⟩ := p.exists_eq_cons
    rw [hu]
    rfl
  have htokens := p.tokenize_text_append (Text.stops_nil _)
  rw [List.append_nil, tokenize_nil] at htokens
  have hwidget : p.text ∉ o.widgetHelpers := h
  rw [htext, expressionOf_of_opensBlock_eq_false hplain, htokens]
  exact ⟨hplain, by simp [Expression.ofTokens, hwidget]⟩

end RelativeTag

/-- A tag with a relative path, under any markers and with any further arguments, is rewritten
exactly if the path is the two dots alone, they are no reserved word, and the tag is no control
tag. -/
theorem isRewrite_relativeTag (o : Options) (t : Tag) (m : Markers) (x : RelativeTag) {w w' : Text}
    (hw : w.all isBlank = true) (hw' : w'.all isBlank = true)
    (ht : t.inner = m.lead ++ (w ++ (x.text ++ (w' ++ m.trail)))) (hx : ¬ x.IsWidget o) :
    (∃ new, t.decision o = .rewrite new) ↔
      x.path.text = ['.', '.'] ∧ ['.', '.'] ∉ o.reservedWords ∧ ¬ x.IsElse := by
  obtain ⟨y, hpath, hwidget, helse, hstrip⟩ := x.exists_strip_eq m hw hw'
  rw [← ht, ← Tag.body] at hstrip
  rw [← hwidget] at hx
  rw [← hpath, ← helse, ← y.isControl_text, ← hstrip, Tag.decision]
  cases hcontrol : isControl (Markers.strip t.body).1 with
  | true => simp [Decision.ofBody, hcontrol]
  | false =>
      have hlookUp : ∃ arguments, (∃ new, Decision.ofBody o t.body = .rewrite new) ↔
          ∃ call, pathUse o y.path.text arguments = .lookUp call := by
        cases y with
        | alone p =>
            obtain ⟨hplain, hread⟩ := RelativeTag.expressionOf_alone hx
            rw [← hstrip] at hplain hread
            exact ⟨none, isRewrite_ofBody_path_iff hcontrol hplain hread⟩
        | argument p call =>
            obtain ⟨arguments, hread⟩ := RelativeTag.exists_expressionOf_eq o p call
            rw [← hstrip] at hread
            exact ⟨arguments, isRewrite_ofBody_iff hcontrol hread⟩
      obtain ⟨arguments, hiff⟩ := hlookUp
      rw [hiff, y.path.exists_lookUp_iff]
      simp

/-- The tag `#each  ../rows[0] filter='a==b' x as |row|`. -/
def relativeSample : RelativeTag :=
  .argument
    ⟨"../rows[0]".toList, .inr (.inr (.inr ⟨"rows[0]".toList, rfl⟩)),
      Text.forall_mem_of_all (by decide +kernel), by decide +kernel⟩
    { sign := ['#']
      helper := ⟨"each".toList, by decide +kernel⟩
      gap := "  ".toList
      rest := " filter='a==b' x as |row|".toList
      isSign := .inr (.inl rfl)
      gap_ne_nil := List.cons_ne_nil _ _
      gap_blank := rfl
      rest_breaks := Text.stops_cons.2 rfl }

/-- Neither brackets in the path nor a pair that shapes the data send a relative path to the
accessor. -/
theorem isRewrite_relativeTag_sample :
    ¬ ∃ new, Tag.decision Options.default
      ⟨"~ #each  ../rows[0] filter='a==b' x as |row| ~".toList, .start⟩ = .rewrite new := by
  have hspace : [' '].all isBlank = true := rfl
  rw [isRewrite_relativeTag Options.default
    ⟨"~ #each  ../rows[0] filter='a==b' x as |row| ~".toList, .start⟩ ⟨true, true, false⟩
    relativeSample hspace hspace (by decide +kernel) (fun h => h)]
  rintro ⟨hdots, -⟩
  exact absurd hdots (by decide +kernel)

/-- The enclosing context by itself, two dots alone. -/
def enclosingContext : RelativePath :=
  ⟨['.', '.'], .inr (.inl rfl), Text.forall_mem_of_all (by decide), by decide⟩

/-- Not every tag with a relative path is kept: the enclosing context by itself is looked up. -/
theorem not_kept_relativeTag :
    ¬ ∀ (o : Options) (t : Tag) (m : Markers) (x : RelativeTag), o.isValid = true →
      t.inner = m.lead ++ (x.text ++ m.trail) → ¬ x.IsWidget o →
      ∀ new, t.decision o ≠ .rewrite new := by
  intro h
  have hwidget : ['.', '.'] ∉ Options.default.widgetHelpers := by decide +kernel
  have hkept := h Options.default ⟨['.', '.'], .start⟩ ⟨false, false, false⟩
    (.alone enclosingContext) (by decide +kernel) rfl hwidget
    (braced "convertFromDotNotation this \"..\"".toList)
  exact hkept (by decide +kernel)

end MustachePath
