import MustachePath.Proofs.BlockReplacements

/-!
# Preprocessing twice

A tag without parentheses and braces of its own, and with a name for its helper, is settled in each
of the four shapes of a replacement. So preprocessing a template with only such tags rewritten
changes nothing the second time (`preprocess_preprocess`).
-/

namespace MustachePath

/-- Whether a text has neither parentheses nor braces. -/
def Bare (t : Text) : Prop := ∀ c ∈ t, c ∉ ['(', ')', '{', '}']

instance (t : Text) : Decidable (Bare t) :=
  List.decidableBAll (fun c => c ∉ ['(', ')', '{', '}']) t

theorem Bare.no_parens {t : Text} (h : Bare t) : '(' ∉ t ∧ ')' ∉ t :=
  ⟨fun hc => h _ hc (by simp), fun hc => h _ hc (by simp)⟩

theorem Bare.no_braces {t : Text} (h : Bare t) : ∀ c ∈ t, c ≠ '{' ∧ c ≠ '}' := by
  intro c hc
  have hmem := h c hc
  simp only [List.mem_cons, List.not_mem_nil, or_false, not_or] at hmem
  exact hmem.2.2

theorem IsName.bare {t : Text} (h : IsName t) : Bare t := by
  intro c hc hmem
  have hname := h.2 c hc
  simp only [List.mem_cons, List.not_mem_nil, or_false] at hmem
  obtain rfl | rfl | rfl | rfl := hmem <;> exact absurd hname (by decide)

theorem Bare.of_tokenize {cs : Text} (h : Bare cs) : ∀ t ∈ tokenize cs, Bare t :=
  fun _ ht c hc => h c (mem_of_mem_tokenize ht hc)

theorem Bare.joinSpaced {ts : List Text} (h : ∀ t ∈ ts, Bare t) : Bare (Text.joinSpaced ts) := by
  intro c hc
  obtain rfl | ⟨t, ht, hc⟩ := Text.mem_joinSpaced hc
  · decide
  · exact h t ht c hc

theorem Bare.of_splitBlockClause {text : Text} (h : Bare text) :
    Bare (splitBlockClause text).1 ∧ Bare ((splitBlockClause text).2.getD []) := by
  refine ⟨fun c hc => h c ((isPrefix_splitBlockClause text).subset hc), ?_⟩
  cases hsplit : (splitBlockClause text).2 with
  | none =>
      intro c hc
      simp at hc
  | some clause =>
      obtain ⟨suffix, hcs, hclause⟩ := splitBlockClause_eq_some hsplit
      obtain ⟨lead, gap, names, trail, -, rfl, rfl⟩ := blockClause?_eq_some_iff.1 hclause
      intro c hc
      apply h c
      rw [hcs]
      exact List.mem_append_right _ (mem_of_mem_clauseText hc)

namespace LookUp

/-- Whether the texts of a look-up have neither parentheses nor braces. -/
structure IsBare (call : LookUp) : Prop where
  path : Bare call.path
  pairs : ∀ t ∈ call.pairs, Bare t
  positional : ∀ t ∈ call.positional, Bare t

theorem IsBare.literal {call : LookUp} (h : call.IsBare) : Bare call.literal := by
  intro c hc
  simp only [LookUp.literal, List.cons_append, List.mem_cons, List.mem_append, List.not_mem_nil,
    or_false] at hc
  obtain rfl | hc | rfl := hc
  · decide
  · obtain rfl | hc := mem_of_mem_protectQuotesFrom hc
    · decide
    · exact h.path c hc
  · decide

theorem IsBare.callText {call : LookUp} (h : call.IsBare) {accessor : Text}
    (hacc : IsName accessor) : Bare (call.callText accessor) := by
  apply Bare.joinSpaced
  intro t ht
  simp only [List.mem_cons] at ht
  obtain rfl | rfl | rfl | ht := ht
  · exact hacc.bare
  · exact isName_contextWord.bare
  · exact h.literal
  · exact h.pairs t ht

theorem IsBare.helperArguments {call : LookUp} (h : call.IsBare) : Bare call.helperArguments := by
  apply Bare.joinSpaced
  intro t ht
  obtain ht | ht := List.mem_append.1 ht
  · exact h.positional t ht
  · exact h.pairs t ht

theorem IsBare.group_no_braces {call : LookUp} (h : call.IsBare) {accessor : Text}
    (hacc : IsName accessor) : ∀ c ∈ call.group accessor, c ≠ '{' ∧ c ≠ '}' := by
  intro c hc
  rw [group_eq] at hc
  simp only [List.cons_append, List.mem_cons, List.mem_append, List.not_mem_nil, or_false] at hc
  obtain rfl | hc | rfl := hc
  · decide
  · exact (h.callText hacc).no_braces c hc
  · decide

theorem isBare_of_pathUse {o : Options} {p : Text} {arguments : Option Text} {call : LookUp}
    (hp : Bare p) (harguments : Bare (arguments.getD []))
    (h : pathUse o p arguments = .lookUp call) : call.IsBare := by
  obtain ⟨-, -, -, -, -, rfl⟩ := pathUse_eq_lookUp h
  have htokens := harguments.of_tokenize
  exact ⟨hp, fun t ht => htokens t (List.mem_filter.1 ht).1,
    fun t ht => htokens t (List.mem_filter.1 ht).1⟩

end LookUp

section Shapes

variable {o : Options} {inner : Text} {m : Markers}

/-- The end of a replacement with at most one part behind the context word. -/
theorem stops_reread (m : Markers) {t : Text}
    (ht : ∀ c ∈ t.head?, isBlank c = false ∧ c ≠ '=') :
    (Markers.reread (Text.spaced [t] ++ m.trail)).Breaks ∧
      Text.Stops (· == '=') (Text.trimStart (Markers.reread (Text.spaced [t] ++ m.trail))) := by
  obtain ⟨e, he, -⟩ := Markers.exists_eq_reread_append m (Text.spaced [t])
  generalize Markers.reread (Text.spaced [t] ++ m.trail) = kept at he ⊢
  cases kept with
  | nil => exact ⟨Text.stops_nil _, Text.stops_nil _⟩
  | cons a kept =>
      cases t with
      | nil => simp [Text.spaced] at he
      | cons c t =>
          obtain ⟨hc, hc'⟩ := ht c rfl
          have hspaced : Text.spaced [c :: t] = ' ' :: c :: t := by simp [Text.spaced]
          simp only [hspaced, List.cons_append, List.cons.injEq] at he
          obtain ⟨rfl, he⟩ := he
          refine ⟨Text.stops_cons.2 rfl, ?_⟩
          have hspace : Text.trimStart (' ' :: kept) = Text.trimStart kept :=
            Text.trimStart_append (w := [' ']) rfl kept
          rw [hspace]
          cases kept with
          | nil => exact Text.stops_nil _
          | cons d kept =>
              obtain ⟨rfl, -⟩ := List.cons.inj he
              rw [Text.trimStart_eq_self (Text.stops_cons.2 hc), Text.stops_cons]
              simpa using hc'

/-- A call on the context word is settled. -/
theorem settled_of_context {head t : Text} (hhead : IsName head) (hbare : Bare t)
    (ht : ∀ c ∈ t.head?, isBlank c = false ∧ c ≠ '=')
    (hout : tagOutput o inner = m.wrap [head, contextWord, t]) : Settled o inner := by
  have hsplit : contextWord = ['t', 'h', 'i'] ++ ['s'] := rfl
  rw [hsplit] at hout
  refine settled_of_wrap hout (Markers.leads_of_isName hhead) rfl (by decide) ?_ ?_
  · intro p hp
    simp only [List.mem_cons, List.not_mem_nil, or_false] at hp
    obtain rfl | rfl | rfl := hp
    · exact hhead.bare.no_braces
    · exact isName_contextWord.bare.no_braces
    · exact hbare.no_braces
  · intro body hbody
    obtain ⟨hbreaks, hequals⟩ := stops_reread m ht
    exact replacement_of_context hhead hbreaks hequals hbody

/-- A helper on the accessor's call is settled. -/
theorem settled_of_group {helper : Text} {call : LookUp} (ho : o.isValid = true)
    (hhelper : IsName helper) (hbare : call.IsBare)
    (hout : tagOutput o inner = m.wrap [helper, call.group o.accessor, call.helperArguments]) :
    Settled o inner := by
  have hcall := hbare.callText (isName_accessor ho)
  rw [LookUp.group_eq] at hout
  refine settled_of_wrap hout (Markers.leads_of_isName hhelper) rfl (by decide) ?_ ?_
  · intro p hp
    simp only [List.mem_cons, List.not_mem_nil, or_false] at hp
    obtain rfl | rfl | rfl := hp
    · exact hhelper.bare.no_braces
    · exact hbare.group_no_braces (isName_accessor ho)
    · exact hbare.helperArguments.no_braces
  · intro body hbody
    apply replacement_of_group hhelper hcall.no_parens.1 hcall.no_parens.2
    refine ⟨Markers.reread (Text.spaced [call.helperArguments] ++ m.trail), ?_⟩
    rw [hbody, expressionOf_of_opensBlock_eq_false (opensBlock_of_isName hhelper)]

/-- A block's opening tag on the accessor's call is settled. -/
theorem settled_of_block {text helper p : Text} {arguments : Option Text} {call : LookUp}
    {sign : Char} (ho : o.isValid = true)
    (hsign : sign = '#' ∨ sign = '^') (hhelper : IsName helper) (htext : Bare text)
    (hread : Expression.ofTokens o.widgetHelpers (tokenize (splitBlockClause text).1) =
      .onPath helper p arguments)
    (huse : pathUse o p arguments = .lookUp call) (hbare : call.IsBare)
    (hlast : ∀ c ∈ text.getLast?, isBlank c = false)
    (htilde : m.trimsAfter = false → text.getLast? ≠ some '~')
    (hout : tagOutput o inner = m.wrap [sign :: helper, call.group o.accessor,
      call.helperArguments, (splitBlockClause text).2.getD []]) :
    Settled o inner := by
  have haccessor := isName_accessor ho
  have hcall := hbare.callText haccessor
  have hleads : Markers.Leads (sign :: helper) := by
    refine ⟨sign, helper, rfl, ?_⟩
    obtain rfl | rfl := hsign <;> decide
  rw [LookUp.group_eq] at hout
  refine settled_of_wrap hout hleads rfl (by decide) ?_ ?_
  · intro p hp
    simp only [List.mem_cons, List.not_mem_nil, or_false] at hp
    obtain rfl | rfl | rfl | rfl := hp
    · intro c hc
      obtain rfl | hc := List.mem_cons.1 hc
      · obtain rfl | rfl := hsign <;> decide
      · exact hhelper.bare.no_braces c hc
    · exact hbare.group_no_braces haccessor
    · exact hbare.helperArguments.no_braces
    · exact htext.of_splitBlockClause.2.no_braces
  · intro body hbody
    apply replacement_of_group hhelper hcall.no_parens.1 hcall.no_parens.2
    refine ⟨(splitBlockClause (blockEnd m text call)).1, ?_⟩
    have hwhole : (splitBlockClause (call.callEnd ++ blockEnd m text call)).1 =
        call.callEnd ++ (splitBlockClause (blockEnd m text call)).1 := by
      rw [splitBlockClause_append]
      intro pre c suffix hpre
      exact clauseAt?_callEnd hread huse hlast htilde hpre
    rw [hbody, List.cons_append, expressionOf_cons hsign, ← blockEnd, LookUp.callText_eq,
      splitBlockClause_call hhelper haccessor, hwhole, LookUp.callText_eq]

end Shapes

/-- Whether a tag's text has neither parentheses nor braces, and a name for its helper, if it calls
one. -/
structure IsPlainBody (o : Options) (body : Text) : Prop where
  bare : Bare body
  isName : ∀ helper, (expressionOf o (Markers.strip body).1).helper? = some helper → IsName helper

/-- Tokens of a text without parentheses and braces have none when they are joined. -/
theorem Bare.getD_of_eq_joinSpaced {cs : Text} {rest : List Text} {arguments : Option Text}
    (hcs : Bare cs) (hrest : rest <:+ tokenize cs)
    (h : arguments.getD [] = Text.joinSpaced rest) : Bare (arguments.getD []) := by
  rw [h]
  exact Bare.joinSpaced fun t ht => hcs.of_tokenize t (hrest.subset ht)

/-- Arguments that begin with a pair begin with a character of its name. -/
theorem head?_joinSpaced_of_pair {rest : List Text}
    (h : ∀ t ∈ rest.head?, isPairShaped t = true) :
    ∀ c ∈ (Text.joinSpaced rest).head?, isBlank c = false ∧ c ≠ '=' := by
  cases rest with
  | nil => simp
  | cons t rest =>
      obtain ⟨key, value, ⟨hne, hkey⟩, rfl⟩ := exists_eq_of_isPairShaped (h t rfl)
      intro c hc
      have hmem : c ∈ key := by
        cases key with
        | nil => exact absurd rfl hne
        | cons d key =>
            rw [Text.joinSpaced_cons] at hc
            have hd : d = c := by simpa using hc
            simp [hd]
      refine ⟨isBlank_eq_false_of_isNameChar (hkey c hmem), ?_⟩
      rintro rfl
      exact absurd (hkey _ hmem) (by decide)

/-- Whatever shape its replacement takes, a plain tag is settled. -/
theorem settled_of_rewritten {o : Options} (ho : o.isValid = true) {m : Markers}
    {inner text new : Text} (hrewritten : Rewritten o m text new)
    (hout : tagOutput o inner = new) (htext : Bare text)
    (hname : ∀ helper, (expressionOf o text).helper? = some helper → IsName helper)
    (hlast : ∀ c ∈ text.getLast?, isBlank c = false)
    (htilde : m.trimsAfter = false → text.getLast? ≠ some '~') : Settled o inner := by
  cases hrewritten with
  | @path _ p call hplain hread huse =>
      rw [expressionOf_of_opensBlock_eq_false hplain] at hread
      have hp : Bare p := by
        apply htext.of_tokenize
        rw [Expression.ofTokens_eq_path hread]
        simp
      have hnil : Bare ((none : Option Text).getD []) := by
        intro c hc
        simp at hc
      apply settled_of_context (isName_accessor ho) (LookUp.isBare_of_pathUse hp hnil huse).literal
        _ hout
      intro c hc
      have hquote : '"' = c := by simpa [LookUp.literal] using hc
      rw [← hquote]
      decide
  | @onContext _ helper arguments hplain hread =>
      have hhelper := hname helper (by rw [hread]; rfl)
      rw [expressionOf_of_opensBlock_eq_false hplain] at hread
      obtain ⟨rest, htokens, harguments, hpair⟩ := Expression.ofTokens_eq_onContext hread
      have hbare := htext.getD_of_eq_joinSpaced ⟨[helper], htokens.symm⟩ harguments
      apply settled_of_context hhelper hbare _ hout
      rw [harguments]
      exact head?_joinSpaced_of_pair hpair
  | @onPath _ helper p arguments call hplain hread huse =>
      have hhelper := hname helper (by rw [hread]; rfl)
      rw [expressionOf_of_opensBlock_eq_false hplain] at hread
      obtain ⟨rest, htokens, harguments, -⟩ := Expression.ofTokens_eq_onPath hread
      have hp : Bare p := htext.of_tokenize p (by simp [htokens])
      have hbare := htext.getD_of_eq_joinSpaced ⟨[helper, p], htokens.symm⟩ harguments
      exact settled_of_group ho hhelper (LookUp.isBare_of_pathUse hp hbare huse) hout
  | @block sign text helper p arguments call hsign hread huse =>
      have hhelper := hname helper (by rw [hread]; rfl)
      rw [expressionOf_cons hsign] at hread
      have htext' : Bare text := fun c hc => htext c (List.mem_cons_of_mem sign hc)
      obtain ⟨rest, htokens, harguments, -⟩ := Expression.ofTokens_eq_onPath hread
      have hsplit := htext'.of_splitBlockClause.1
      have hp : Bare p := hsplit.of_tokenize p (by simp [htokens])
      have hbare := hsplit.getD_of_eq_joinSpaced ⟨[helper, p], htokens.symm⟩ harguments
      have hne : text ≠ [] := by
        rintro rfl
        rw [show splitBlockClause [] = ([], none) from rfl, tokenize_nil] at htokens
        simp at htokens
      have hend : (sign :: text).getLast? = text.getLast? :=
        Text.getLast?_append_of_ne_nil (s := [sign]) hne
      rw [hend] at hlast htilde
      exact settled_of_block ho hsign hhelper htext' hread huse
        (LookUp.isBare_of_pathUse hp hbare huse) hlast htilde hout

/-- A tag that is plain if it is rewritten is settled. -/
theorem settled_of_isPlainBody {o : Options} (ho : o.isValid = true) {inner : Text}
    (h : ∀ new, Decision.ofBody o (Text.trim inner) = .rewrite new →
      IsPlainBody o (Text.trim inner)) : Settled o inner := by
  cases hbody : Decision.ofBody o (Text.trim inner) with
  | control => exact Or.inl (tagOutput_eq_braced (by rw [hbody]; rfl))
  | leave reason => exact Or.inl (tagOutput_eq_braced (by rw [hbody]; rfl))
  | invalid reason => exact Or.inl (tagOutput_eq_braced (by rw [hbody]; rfl))
  | rewrite new =>
      obtain ⟨hbare, hname⟩ := h new hbody
      obtain ⟨-, hrewritten⟩ := rewritten_of_ofBody_eq_rewrite hbody
      have hout : tagOutput o inner = new := by rw [tagOutput, hbody, Decision.output]
      have htext : Bare (Markers.strip (Text.trim inner)).1 := fun c hc =>
        hbare c (Markers.mem_of_mem_strip hc)
      exact settled_of_rewritten ho hrewritten hout htext hname (Text.getLast?_trim _)
        (Markers.getLast?_strip (Text.getLast?_trim inner))

/-- Preprocessing a template a second time changes nothing, provided its rewritten tags are
plain. -/
theorem preprocess_preprocess {o : Options} {source : Text} (ho : o.isValid = true)
    (h : ∀ t ∈ tags source, (∃ new, t.decision o = .rewrite new) → IsPlainBody o t.body) :
    preprocess o (preprocess o source) = preprocess o source := by
  apply preprocess_preprocess_of_settled
  intro inner hinner
  obtain ⟨t, ht, rfl⟩ := exists_mem_tags_of_mem_pieces hinner
  exact settled_of_isPlainBody ho fun new hnew => h t ht ⟨new, hnew⟩

/-- A block on an item of a list, with a block parameter. -/
theorem preprocess_preprocess_block :
    Options.default.isValid = true ∧
      (∀ t ∈ tags (braced "#each items[0] as |x|".toList),
        (∃ new, t.decision Options.default = .rewrite new) →
          IsPlainBody Options.default t.body) ∧
      preprocess Options.default (braced "#each items[0] as |x|".toList) ≠
        braced "#each items[0] as |x|".toList ∧
      preprocess Options.default
          (preprocess Options.default (braced "#each items[0] as |x|".toList)) =
        preprocess Options.default (braced "#each items[0] as |x|".toList) := by
  have hvalid : Options.default.isValid = true := by decide +kernel
  have hplain : ∀ t ∈ tags (braced "#each items[0] as |x|".toList),
      (∃ new, t.decision Options.default = .rewrite new) →
        IsPlainBody Options.default t.body := by
    have htags : tags (braced "#each items[0] as |x|".toList) =
        [⟨"#each items[0] as |x|".toList, .start⟩] := by decide +kernel
    have hread : expressionOf Options.default
        (Markers.strip (Text.trim "#each items[0] as |x|".toList)).1 =
          .onPath "each".toList "items[0]".toList none := by decide +kernel
    have hbare : Bare (Text.trim "#each items[0] as |x|".toList) := by decide +kernel
    have hname : IsName "each".toList := by decide +kernel
    intro t ht _
    rw [htags, List.mem_singleton] at ht
    rw [ht]
    refine ⟨hbare, fun helper hhelper => ?_⟩
    rw [Tag.body, hread] at hhelper
    obtain rfl : "each".toList = helper := by simpa [Expression.helper?] using hhelper
    exact hname
  have hchanged : preprocess Options.default (braced "#each items[0] as |x|".toList) ≠
      braced "#each items[0] as |x|".toList := by decide +kernel
  exact ⟨hvalid, hplain, hchanged, preprocess_preprocess hvalid hplain⟩

end MustachePath
