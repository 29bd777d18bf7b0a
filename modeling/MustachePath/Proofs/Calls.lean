import MustachePath.Proofs.Clauses
import MustachePath.Proofs.Replacements
import MustachePath.Proofs.Respacing

/-!
# Arguments of a rewritten call

The arguments of a call are joined to one text and read again before they are arranged. Nothing is
lost, merged or split by that: the replacement holds the tokens of the tag, the pairs twice and all
others once (`decision_of_call`). A tag with the word `else` for its helper is a control tag and
stays (`not_decision_of_call_else`).
-/

namespace MustachePath

/-- A call as it is read in a tag's text: the sign of a block, if any, the text with the helper and
its arguments, and the clause for block parameters. -/
structure Call where
  sign : Text
  text : Text
  clause : Option Text
deriving DecidableEq, Repr

namespace Call

/-- The call in a tag's text without markers. -/
def read : Text → Call
  | '#' :: text => ⟨['#'], (splitBlockClause text).1, (splitBlockClause text).2⟩
  | '^' :: text => ⟨['^'], (splitBlockClause text).1, (splitBlockClause text).2⟩
  | text => ⟨[], text, none⟩

/-- The arguments that the accessor receives besides the path. -/
def accessorArguments (arguments : List Text) : List Text := arguments.filter isPairShaped

/-- The arguments that the helper receives besides the accessor's result. -/
def helperArguments (arguments : List Text) : List Text :=
  (arguments.filter fun t => !isPairShaped t) ++ arguments.filter isPairShaped

/-- The parts of a replacement: the helper, the accessor's call, the arguments and the clause. -/
def replacementParts (c : Call) (o : Options) (helper path : Text) (arguments : List Text) :
    List Text :=
  (c.sign ++ helper) ::
    ('(' :: Text.joinSpaced (o.accessor :: contextWord :: ('"' :: protectQuotes path ++ ['"']) ::
      accessorArguments arguments) ++ [')']) ::
    (helperArguments arguments ++ c.clause.toList)

end Call

/-- Whether a path may go through the accessor, as far as its arguments do not matter: it is no
group, not relative, not the context, not reserved and no literal. -/
def Eligible (o : Options) (path : Text) : Prop :=
  isGroup path = false ∧ isRelative path = false ∧ isContextPath path = false ∧
    path ∉ o.reservedWords ∧ Text.isLiteral path = false

instance (o : Options) (path : Text) : Decidable (Eligible o path) :=
  inferInstanceAs (Decidable (_ ∧ _ ∧ _ ∧ _ ∧ _))

/-- Whether a call stays as it is: the path is native and no pair shapes the result. -/
def StaysNative (o : Options) (path : Text) (arguments : List Text) : Prop :=
  isNative path = true ∧ ∀ t ∈ arguments, ∀ k ∈ pairKey? t, k ∉ o.shapingKeys

instance (o : Options) (path : Text) (arguments : List Text) :
    Decidable (StaysNative o path arguments) :=
  inferInstanceAs (Decidable (_ ∧ _))

theorem read_of_opensBlock_eq_false {text : Text} (h : opensBlock text = false) :
    Call.read text = ⟨[], text, none⟩ := by
  unfold Call.read
  split
  · simp [opensBlock] at h
  · simp [opensBlock] at h
  · rfl

theorem read_cons {sign : Char} (hsign : sign = '#' ∨ sign = '^') (text : Text) :
    Call.read (sign :: text) =
      ⟨[sign], (splitBlockClause text).1, (splitBlockClause text).2⟩ := by
  obtain rfl | rfl := hsign <;> rfl

theorem exists_of_opensBlock {text : Text} (h : opensBlock text = true) :
    ∃ sign u, (sign = '#' ∨ sign = '^') ∧ text = sign :: u := by
  unfold opensBlock at h
  split at h
  · exact ⟨_, _, Or.inl rfl, rfl⟩
  · exact ⟨_, _, Or.inr rfl, rfl⟩
  · simp at h

theorem expressionOf_eq_read (o : Options) (text : Text) :
    expressionOf o text = .ofTokens o.widgetHelpers (tokenize (Call.read text).text) := by
  cases hblock : opensBlock text with
  | false => rw [expressionOf_of_opensBlock_eq_false hblock, read_of_opensBlock_eq_false hblock]
  | true =>
      obtain ⟨sign, u, hsign, rfl⟩ := exists_of_opensBlock hblock
      rw [expressionOf_cons hsign, read_cons hsign]

/-- What is read of a tag's text stands in it. -/
theorem isInfix_read (text : Text) : (Call.read text).text <:+: text := by
  unfold Call.read
  split
  · exact (isPrefix_splitBlockClause _).isInfix.trans (List.suffix_cons _ _).isInfix
  · exact (isPrefix_splitBlockClause _).isInfix.trans (List.suffix_cons _ _).isInfix
  · exact List.infix_refl _

/-- Without a clause, a call stands at the end of its tag's text. -/
theorem isSuffix_read {text : Text} (h : (Call.read text).clause = none) :
    (Call.read text).text <:+ text := by
  have hsplit : ∀ {u : Text}, (splitBlockClause u).2 = none → (splitBlockClause u).1 <:+ u := by
    intro u hu
    rw [(splitBlockClause_eq_none hu).1]
  unfold Call.read at h ⊢
  split at h
  · exact (hsplit h).trans (List.suffix_cons _ _)
  · exact (hsplit h).trans (List.suffix_cons _ _)
  · exact List.suffix_refl _

theorem exists_eq_clauseText {text clause : Text} (h : (Call.read text).clause = some clause) :
    ∃ gap names, clause = clauseText gap names := by
  have hsplit : ∀ {u : Text}, (splitBlockClause u).2 = some clause →
      ∃ gap names, clause = clauseText gap names := by
    intro u hu
    obtain ⟨suffix, -, hclause⟩ := splitBlockClause_eq_some hu
    obtain ⟨lead, gap, names, trail, -, -, rfl⟩ := blockClause?_eq_some_iff.1 hclause
    exact ⟨gap, names, rfl⟩
  unfold Call.read at h
  split at h
  · exact hsplit h
  · exact hsplit h
  · simp at h

theorem clause_ne_nil {text clause : Text} (h : (Call.read text).clause = some clause) :
    clause ≠ [] := by
  obtain ⟨gap, names, rfl⟩ := exists_eq_clauseText h
  exact List.cons_ne_nil _ _

theorem wrap_concat_nil (m : Markers) (parts : List Text) :
    m.wrap (parts ++ [[]]) = m.wrap parts := by
  simp [Markers.wrap]

/-- The decision about a call is the one about its path. -/
theorem ofBody_of_onPath {o : Options} {body helper p : Text} {arguments : Option Text}
    (hcontrol : isControl (Markers.strip body).1 = false)
    (hread : expressionOf o (Markers.strip body).1 = .onPath helper p arguments) :
    Decision.ofBody o body =
      match pathUse o p arguments with
      | .keep reason => .leave reason
      | .lookUp call => .rewrite <| (Markers.strip body).2.wrap
          [(Call.read (Markers.strip body).1).sign ++ helper, call.group o.accessor,
            call.helperArguments, (Call.read (Markers.strip body).1).clause.getD []] := by
  cases hblock : opensBlock (Markers.strip body).1 with
  | false =>
      rw [ofBody_eq_ofExpression hcontrol hblock, read_of_opensBlock_eq_false hblock]
      rw [expressionOf_of_opensBlock_eq_false hblock] at hread
      cases huse : pathUse o p arguments with
      | keep reason => simp [Decision.ofExpression, hread, huse]
      | lookUp call =>
          have hwrap := wrap_concat_nil (Markers.strip body).2
            [helper, call.group o.accessor, call.helperArguments]
          simp only [Decision.ofExpression, hread, huse]
          exact congrArg Decision.rewrite hwrap.symm
  | true =>
      obtain ⟨sign, u, hsign, htext⟩ := exists_of_opensBlock hblock
      rw [htext, expressionOf_cons hsign] at hread
      rw [htext] at hcontrol
      rw [Decision.ofBody, htext, if_neg (by simp [hcontrol]), read_cons hsign]
      obtain rfl | rfl := hsign <;>
        cases huse : pathUse o p arguments <;> simp [Decision.ofBlock, hread, huse]

theorem spaced_cons {t : Text} (ht : t ≠ []) (us : List Text) :
    Text.spaced (t :: us) = ' ' :: (t ++ Text.spaced us) := by
  simp [Text.spaced, ht]

/-- Parts that are joined first stand in the whole like single parts. -/
theorem spaced_joinSpaced_cons {ts : List Text} (hts : ∀ t ∈ ts, t ≠ []) (us : List Text) :
    Text.spaced (Text.joinSpaced ts :: us) = (ts.flatMap fun t => ' ' :: t) ++ Text.spaced us := by
  cases ts with
  | nil => rfl
  | cons t ts =>
      have hne : t ++ (ts.flatMap fun t => ' ' :: t) ≠ [] :=
        List.append_ne_nil_of_left_ne_nil (hts t (by simp)) _
      rw [Text.joinSpaced_cons, spaced_cons hne]
      simp

theorem spaced_clause {clause : Option Text} (h : ∀ t ∈ clause, t ≠ []) :
    Text.spaced [clause.getD []] = clause.toList.flatMap fun t => ' ' :: t := by
  cases clause with
  | none => rfl
  | some t =>
      rw [Option.getD_some, spaced_cons (h t rfl)]
      rfl

/-- A rewritten call consists of its parts. -/
theorem wrap_eq_replacementParts {o : Options} (m : Markers) (c : Call) {helper p : Text}
    {arguments : List Text} (hhelper : helper ≠ []) (harguments : ∀ t ∈ arguments, t ≠ [])
    (hclause : ∀ t ∈ c.clause, t ≠ []) {call : LookUp}
    (hcall : call = ⟨p, arguments.filter isPairShaped, arguments.filter fun t => !isPairShaped t⟩) :
    m.wrap [c.sign ++ helper, call.group o.accessor, call.helperArguments, c.clause.getD []] =
      braced (m.lead ++ Text.joinSpaced (c.replacementParts o helper p arguments) ++ m.trail) := by
  have hhead : c.sign ++ helper ≠ [] := List.append_ne_nil_of_right_ne_nil _ hhelper
  have hgroup : call.group o.accessor ≠ [] := List.cons_ne_nil _ _
  have hargs : ∀ t ∈ Call.helperArguments arguments, t ≠ [] := by
    intro t ht
    simp only [Call.helperArguments, List.mem_append, List.mem_filter] at ht
    obtain ht | ht := ht
    · exact harguments t ht.1
    · exact harguments t ht.1
  have hjoin : call.helperArguments = Text.joinSpaced (Call.helperArguments arguments) := by
    rw [hcall]
    rfl
  have hcalled : call.group o.accessor =
      '(' :: Text.joinSpaced (o.accessor :: contextWord :: ('"' :: protectQuotes p ++ ['"']) ::
        Call.accessorArguments arguments) ++ [')'] := by
    rw [hcall]
    rfl
  rw [Markers.wrap_eq_braced m hhead hgroup, hjoin, spaced_joinSpaced_cons hargs,
    spaced_clause hclause, Call.replacementParts, Text.joinSpaced_cons, hcalled]
  simp only [List.flatMap_cons, List.flatMap_append, List.append_assoc, List.cons_append,
    List.nil_append]

/-- The look-up of an eligible path, whose arguments were joined and are read again. -/
theorem pathUse_of_eligible {o : Options} {p : Text} {arguments : Option Text} {ts : List Text}
    (hp : Eligible o p) (hts : tokenize (arguments.getD []) = ts) :
    pathUse o p arguments =
      if StaysNative o p ts then .keep .nativePath
      else .lookUp ⟨p, ts.filter isPairShaped, ts.filter fun t => !isPairShaped t⟩ := by
  obtain ⟨hgroup, hrelative, hcontext, hreserved, hliteral⟩ := hp
  have hnative : (isNative p && !(ts.filterMap pairKey?).any o.shapingKeys.contains) = true ↔
      StaysNative o p ts := by
    simp only [StaysNative, Bool.and_eq_true, Bool.not_eq_true', List.any_eq_false,
      List.mem_filterMap, List.contains_iff_mem, Option.mem_def]
    constructor
    · rintro ⟨hnative, hkeys⟩
      exact ⟨hnative, fun t ht k hk => hkeys k ⟨t, ht, hk⟩⟩
    · rintro ⟨hnative, hkeys⟩
      exact ⟨hnative, fun k ⟨t, ht, hk⟩ => hkeys t ht k hk⟩
  simp only [pathUse, hts, hgroup, hrelative, hcontext, hliteral, Bool.or_self, Bool.false_eq_true,
    if_false, List.contains_iff_mem, hreserved, hnative]

/-- The arguments after the helper and its path, joined and read again, are the same tokens. -/
theorem tokenize_joinSpaced_of_tokenize {cs h p : Text} {ts : List Text}
    (htokens : tokenize cs = h :: p :: ts) (hfeed : ¬ ['\\', '\n'] <:+: cs) :
    tokenize (Text.joinSpaced ts) = ts := by
  have hsuffix : ts <:+ tokenize cs := ⟨[h, p], htokens.symm⟩
  obtain ⟨r, hr, rfl⟩ := exists_tokenize_eq_of_suffix hsuffix
  exact tokenize_joinSpaced_tokenize fun hin => hfeed (hin.trans hr.isInfix)

/-- Each pair is written twice and any other argument once. -/
theorem count_arguments (ts : List Text) (e : Text) :
    (Call.accessorArguments ts ++ Call.helperArguments ts).count e =
      (if isPairShaped e then 2 else 1) * ts.count e := by
  rw [Call.accessorArguments, Call.helperArguments, List.count_append, List.count_append]
  cases he : isPairShaped e with
  | true =>
      have hother : (ts.filter fun t => !isPairShaped t).count e = 0 := by
        simp [List.count_eq_zero, he]
      rw [List.count_filter he, hother, if_pos rfl]
      omega
  | false =>
      have hpairs : (ts.filter isPairShaped).count e = 0 := by
        simp [List.count_eq_zero, he]
      have hother : (ts.filter fun t => !isPairShaped t).count e = ts.count e :=
        List.count_filter (by simp [he])
      rw [hpairs, hother, if_neg (by simp)]
      omega

/-- How a tag with a helper and an eligible path is decided. A native path without shaping keys
stays as it is. Otherwise the replacement holds the tokens of the tag, where each pair stands twice
and any other argument once. -/
theorem decision_of_call (o : Options) (t : Tag) {helper p : Text} {ts : List Text}
    (hcontrol : isControl (Markers.strip t.body).1 = false)
    (hfeed : ¬ ['\\', '\n'] <:+: (Markers.strip t.body).1)
    (htokens : tokenize (Call.read (Markers.strip t.body).1).text = helper :: p :: ts)
    (hpair : isPairShaped p = false) (hp : Eligible o p) :
    (t.decision o =
      if StaysNative o p ts then .leave .nativePath
      else .rewrite <| braced <| (Markers.strip t.body).2.lead ++
        Text.joinSpaced ((Call.read (Markers.strip t.body).1).replacementParts o helper p ts) ++
        (Markers.strip t.body).2.trail) ∧
    ∀ e, (Call.accessorArguments ts ++ Call.helperArguments ts).count e =
      (if isPairShaped e then 2 else 1) * ts.count e := by
  obtain ⟨arguments, hread, harguments⟩ :=
    Expression.ofTokens_cons_cons o.widgetHelpers ts helper hpair
  have hagain : tokenize (arguments.getD []) = ts := by
    rw [harguments]
    exact tokenize_joinSpaced_of_tokenize htokens
      fun hin => hfeed (hin.trans (isInfix_read _))
  have hne : ∀ x ∈ helper :: p :: ts, x ≠ [] := by
    rw [← htokens]
    exact fun x hx => ne_nil_of_mem_tokenize hx
  refine ⟨?_, count_arguments ts⟩
  rw [Tag.decision, ofBody_of_onPath hcontrol (by rw [expressionOf_eq_read, htokens, hread]),
    pathUse_of_eligible hp hagain]
  by_cases hstays : StaysNative o p ts
  · simp only [hstays, if_true]
  · simp only [hstays, if_false]
    refine congrArg Decision.rewrite (wrap_eq_replacementParts _ _ (hne helper (by simp)) ?_ ?_ rfl)
    · exact fun x hx => hne x (by simp [hx])
    · exact fun x hx => clause_ne_nil hx

/-- A block with a positional argument between two pairs and a clause. -/
theorem decision_of_call_list :
    Tag.decision Options.default ⟨"~#list items[0] a = 1 x b='2' as |i|".toList, .start⟩ =
      .rewrite (braced
      "~#list (convertFromDotNotation this \"items[0]\" a=1 b='2') x a=1 b='2' as |i|".toList) := by
  have htokens : tokenize "list items[0] a = 1 x b='2'".toList =
      "list".toList :: "items[0]".toList :: ["a=1".toList, "x".toList, "b='2'".toList] := by
    decide +kernel
  have hread : (Call.read (Markers.strip (Tag.body
      ⟨"~#list items[0] a = 1 x b='2' as |i|".toList, .start⟩)).1).text =
        "list items[0] a = 1 x b='2'".toList := by
    decide +kernel
  have hdecision := (decision_of_call Options.default
    ⟨"~#list items[0] a = 1 x b='2' as |i|".toList, .start⟩ (by decide +kernel)
    (by decide +kernel) ((congrArg tokenize hread).trans htokens) (by decide +kernel)
    (by decide +kernel)).1
  rw [hdecision]
  decide +kernel

/-- A control tag is not rewritten, although its tokens have the form of a call: the word `else` is
no helper. -/
theorem not_decision_of_call_else :
    ¬ ∀ (o : Options) (t : Tag) (helper p : Text) (ts : List Text), o.isValid = true →
      ¬ ['\\', '\n'] <:+: (Markers.strip t.body).1 →
      tokenize (Call.read (Markers.strip t.body).1).text = helper :: p :: ts →
      isPairShaped p = false → Eligible o p →
      t.decision o =
        if StaysNative o p ts then .leave .nativePath
        else .rewrite <| braced <| (Markers.strip t.body).2.lead ++
          Text.joinSpaced ((Call.read (Markers.strip t.body).1).replacementParts o helper p ts) ++
          (Markers.strip t.body).2.trail := by
  intro h
  have helse := h Options.default ⟨"else items[0]".toList, .start⟩ "else".toList
    "items[0]".toList [] (by decide +kernel) (by decide +kernel) (by decide +kernel)
    (by decide +kernel) (by decide +kernel)
  have hcontrol : Tag.decision Options.default ⟨"else items[0]".toList, .start⟩ = .control := by
    decide +kernel
  rw [hcontrol] at helse
  split at helse <;> simp at helse

end MustachePath
