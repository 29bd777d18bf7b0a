import MustachePath.Proofs.Calls
import MustachePath.Proofs.Lexemes
import MustachePath.Proofs.ReplacementBraces

/-!
# Markers of a replacement

A replacement carries the markers of its tag. Reading it as a tag again gives the markers at its
front back, whatever the tag holds, and never loses the one at its end. But since pairs are moved
behind all other arguments, the last pair comes to stand next to the braces, and there a tilde that
it ends with is a marker (`markers_replacement`).
-/

namespace MustachePath

/-! ## Markers around a text -/

namespace Markers

/-- Whether a character that follows the markers at the front of a tag is none of them. After a
tilde a second one is no marker, and neither is an ampersand after another one. -/
structure Precedes (m : Markers) (c : Char) : Prop where
  nonblank : isBlank c = false
  tilde : m.lead = [] → c ≠ '~'
  ampersand : m.raw = false → c ≠ '&'

theorem stripStart_lead_append {m : Markers} {c : Char} (hc : m.Precedes c) (v : Text) :
    stripStart '~' (m.lead ++ c :: v) =
      ((if m.raw then ['&'] else []) ++ c :: v, m.trimsBefore) := by
  obtain ⟨before, after, raw⟩ := m
  cases before with
  | true => exact stripStart_cons _ _
  | false =>
      cases raw with
      | true => exact stripStart_of_head? (by simp [lead])
      | false => exact stripStart_of_head? (by simpa [lead] using hc.tilde rfl)

/-- The markers of a tag whose text has another character after those at its front. -/
theorem strip_lead_cons {m : Markers} {c : Char} (hc : m.Precedes c) {v : Text} (hv : v ≠ []) :
    (strip (m.lead ++ c :: v)).2 = ⟨m.trimsBefore, v.getLast? == some '~', m.raw⟩ := by
  have hclosed := stripEnd_append hv '~' ((if m.raw then ['&'] else []) ++ [c])
  have hraw : (stripStart '&' (Text.trimStart ((if m.raw then ['&'] else []) ++
      c :: (stripEnd '~' v).1))).2 = m.raw := by
    cases hm : m.raw with
    | true => rfl
    | false =>
        have hstops : Text.Stops isBlank (c :: (stripEnd '~' v).1) := Text.stops_cons.2 hc.nonblank
        have hhead : (c :: (stripEnd '~' v).1).head? ≠ some '&' := by
          simpa using hc.ampersand hm
        simp only [Bool.false_eq_true, if_false, List.nil_append, Text.trimStart_eq_self hstops,
          stripStart_of_head? hhead]
  simp only [List.append_assoc, List.cons_append, List.nil_append] at hclosed
  simp only [strip, stripStart_lead_append hc, hclosed, stripEnd_snd, hraw]

theorem stops_lead_cons (m : Markers) {c : Char} (hc : isBlank c = false) (v : Text) :
    Text.Stops isBlank (m.lead ++ c :: v) := by
  cases hlead : m.lead with
  | nil => exact Text.stops_cons.2 hc
  | cons d lead => exact Text.stops_cons.2 (m.nonblank_of_mem_lead d (by simp [hlead]))

/-- Markers around a text are read again, and a tilde at the end of the text is taken for one. -/
theorem strip_trim_enclosed {m : Markers} {c d : Char} (hc : m.Precedes c) {u : Text}
    (hd : u.getLast? = some d) (hblank : isBlank d = false) :
    (strip (Text.trim (m.lead ++ c :: (u ++ m.trail)))).2 =
      ⟨m.trimsBefore, m.trimsAfter || d == '~', m.raw⟩ := by
  have hlast := m.getLast?_append_trail u
  rw [hd] at hlast
  have hne : u ++ m.trail ≠ [] := by
    intro hnil
    rw [(List.append_eq_nil_iff.1 hnil).1] at hd
    simp at hd
  have htrim : Text.trim (m.lead ++ c :: (u ++ m.trail)) = m.lead ++ c :: (u ++ m.trail) := by
    refine Text.trim_eq_self (m.stops_lead_cons hc.nonblank _) fun e he => ?_
    rw [← List.singleton_append, ← List.append_assoc, Text.getLast?_append_of_ne_nil hne,
      hlast] at he
    split at he
    · rw [← Option.some.inj he]
      rfl
    · rw [← Option.some.inj he]
      exact hblank
  rw [htrim, strip_lead_cons hc hne, hlast]
  cases m.trimsAfter <;> rfl

/-- Where no ampersand is a marker, the text without markers does not begin with one. -/
theorem head?_strip_ne_ampersand {body : Text} (h : (strip body).2.raw = false) :
    (strip body).1.head? ≠ some '&' := by
  simp only [strip] at h ⊢
  have hstops := Text.stops_dropWhile isBlank (stripEnd '~' (stripStart '~' body).1).1
  obtain ⟨hhead, hescaped⟩ := stripStart_eq_false h
  have htrim := Text.trimStart_eq_self hstops
  rw [← Text.trimStart] at htrim
  rw [hescaped, Text.trim, htrim]
  exact fun hcontra => hhead (head?_of_isPrefix (isPrefix_trimEnd _) hcontra)

/-- The first character of a tag's text follows the markers of the tag. -/
theorem precedes_of_strip {body : Text} (hbody : Text.Stops isBlank body) {c : Char}
    (hc : (strip body).1.head? = some c) : (strip body).2.Precedes c where
  nonblank := Text.stops_trim _ c hc
  tilde := by
    rintro hlead rfl
    exact head?_strip_ne hbody hlead hc
  ampersand := by
    rintro hraw rfl
    exact head?_strip_ne_ampersand hraw hc

theorem precedes_of_isNameChar (m : Markers) {c : Char} (hc : isNameChar c = true) :
    m.Precedes c where
  nonblank := isBlank_eq_false_of_isNameChar hc
  tilde := by
    rintro - rfl
    exact absurd hc (by decide)
  ampersand := by
    rintro - rfl
    exact absurd hc (by decide)

end Markers

/-! ## The end of a replacement -/

/-- Whether a tilde at the end of a pair comes to stand at the end of the replacement: the pair is
the last one of a call without a clause for block parameters. -/
def exposesTilde (o : Options) (text : Text) : Bool :=
  match expressionOf o text with
  | .onPath _ _ arguments =>
    (Call.read text).clause.isNone &&
      (Call.accessorArguments (tokenize (arguments.getD []))).getLast?.any fun pair =>
        pair.getLast? == some '~'
  | _ => false

/-- Whether a text ends as a replacement may: with a tilde exactly if one is exposed, unless the
tag's text ends with one, and never with white space. -/
def EndsAs (o : Options) (text u : Text) : Prop :=
  ∃ d, u.getLast? = some d ∧ isBlank d = false ∧
    (text.getLast? ≠ some '~' → (d == '~') = exposesTilde o text)

theorem getLast?_append_spaced_concat {k : Text} (hk : k ≠ []) (s : Text) (parts : List Text) :
    (s ++ Text.spaced (parts ++ [k])).getLast? = k.getLast? := by
  have hspaced : s ++ Text.spaced (parts ++ [k]) = s ++ (Text.spaced parts ++ [' ']) ++ k := by
    simp [Text.spaced, List.filter_append, hk]
  rw [hspaced, Text.getLast?_append_of_ne_nil hk]

section Ends

variable {o : Options} {text : Text} (hlast : ∀ c ∈ text.getLast?, isBlank c = false)

include hlast

/-- The last tokens of a call without a clause, joined, end as the tag's text does. -/
theorem getLast?_joinSpaced_of_read {ts : List Text} (hclause : (Call.read text).clause = none)
    (hts : ts <:+ tokenize (Call.read text).text) (hne : ts ≠ []) :
    (Text.joinSpaced ts).getLast? = text.getLast? := by
  have hread : (Call.read text).text ≠ [] := by
    intro hnil
    rw [hnil, tokenize_nil] at hts
    exact hne (List.suffix_nil.1 hts)
  have hsame := Text.getLast?_eq_of_suffix (isSuffix_read hclause) hread
  have htrim : Text.trimEnd (Call.read text).text = (Call.read text).text :=
    Text.trimEnd_eq_self (by rwa [hsame])
  rw [getLast?_joinSpaced_of_suffix hts hne, htrim, hsame]

theorem endsAs_of_getLast?_eq {u : Text} (hne : u ≠ []) (hu : u.getLast? = text.getLast?)
    (hexposes : exposesTilde o text = false) : EndsAs o text u := by
  obtain hnil | ⟨v, d, rfl⟩ := List.eq_nil_or_concat u
  · exact absurd hnil hne
  · rw [List.concat_eq_append, List.getLast?_concat] at hu
    refine ⟨d, by simp, hlast d hu.symm, fun htilde => ?_⟩
    rw [hexposes, beq_eq_false_iff_ne]
    rintro rfl
    exact htilde hu.symm

/-- The arguments of a helper that works on the context keep their order. -/
theorem endsAs_onContext {helper : Text} {arguments : Option Text}
    (hplain : opensBlock text = false) (hread : expressionOf o text = .onContext helper arguments) :
    EndsAs o text (contextWord ++ Text.spaced [arguments.getD []]) := by
  have hexposes : exposesTilde o text = false := by rw [exposesTilde, hread]
  have hcall := read_of_opensBlock_eq_false hplain
  rw [expressionOf_eq_read] at hread
  obtain ⟨rest, htokens, harguments, -⟩ := Expression.ofTokens_eq_onContext hread
  rw [harguments]
  by_cases hrest : rest = []
  · rw [hrest]
    exact ⟨'s', rfl, rfl, fun _ => hexposes.symm⟩
  · have hsuffix : rest <:+ tokenize (Call.read text).text := ⟨[helper], htokens.symm⟩
    have hsame := getLast?_joinSpaced_of_read hlast (by rw [hcall]) hsuffix hrest
    have hne : Text.joinSpaced rest ≠ [] := joinSpaced_ne_nil_of_suffix hsuffix hrest
    refine endsAs_of_getLast?_eq hlast (by simp [contextWord]) ?_ hexposes
    rw [← hsame]
    exact getLast?_append_spaced_concat hne contextWord []

section OnPath

variable {helper p : Text} {arguments : Option Text} {call : LookUp}
  (hread : expressionOf o text = .onPath helper p arguments)

include hread

/-- Arguments without pairs keep their order. -/
theorem endsAs_positional (hclause : (Call.read text).clause = none)
    (hpairs : Call.accessorArguments (tokenize (arguments.getD [])) = []) (accessor : Text) :
    EndsAs o text (call.group accessor ++
      Text.spaced ([] ++ [Text.joinSpaced (tokenize (arguments.getD []))])) := by
  have hexposes : exposesTilde o text = false := by
    rw [exposesTilde, hread]
    simp only [hpairs, List.getLast?_nil, Option.any_none, Bool.and_false]
  have hread' := hread
  rw [expressionOf_eq_read] at hread'
  obtain ⟨rest, htokens, harguments, -⟩ := Expression.ofTokens_eq_onPath hread'
  by_cases hempty : tokenize (arguments.getD []) = []
  · have hspaced : Text.spaced ([] ++ [Text.joinSpaced (tokenize (arguments.getD []))]) = [] := by
      rw [hempty]
      rfl
    refine ⟨')', ?_, rfl, fun _ => hexposes.symm⟩
    rw [hspaced, List.append_nil, LookUp.group, List.getLast?_concat]
  · have hrest : rest ≠ [] := by
      rintro rfl
      apply hempty
      rw [harguments]
      exact tokenize_nil
    have hsame := getLast?_joinSpaced_of_read hlast hclause ⟨[helper, p], htokens.symm⟩ hrest
    have htrim : Text.trimEnd (arguments.getD []) = arguments.getD [] := by
      rw [harguments]
      exact Text.trimEnd_eq_self (by rwa [hsame])
    refine endsAs_of_getLast?_eq hlast (by simp [LookUp.group]) ?_ hexposes
    rw [getLast?_append_spaced_concat (joinSpaced_ne_nil_of_suffix (List.suffix_refl _) hempty),
      getLast?_joinSpaced_of_suffix (List.suffix_refl _) hempty, htrim, harguments, hsame]

omit hlast in
/-- The last pair ends the arguments. -/
theorem endsAs_pair (hclause : (Call.read text).clause = none) {ps : List Text} {k : Text}
    (hpairs : Call.accessorArguments (tokenize (arguments.getD [])) = ps ++ [k]) (s : Text)
    (ts : List Text) :
    EndsAs o text (s ++ Text.spaced ([] ++ [Text.joinSpaced (ts ++ [k])])) := by
  have hmem : k ∈ Call.accessorArguments (tokenize (arguments.getD [])) := by simp [hpairs]
  have hmem := (List.mem_filter.1 hmem).1
  have hne : k ≠ [] := ne_nil_of_mem_tokenize hmem
  obtain ⟨y, hy⟩ := Text.joinSpaced_concat ts k
  obtain ⟨d, hd⟩ := Option.ne_none_iff_exists'.1 (mt List.getLast?_eq_none_iff.1 hne)
  refine ⟨d, ?_, nonblank_getLast?_of_mem_tokenize hmem d hd, fun _ => ?_⟩
  · rw [hy, getLast?_append_spaced_concat (List.append_ne_nil_of_right_ne_nil y hne),
      Text.getLast?_append_of_ne_nil hne, hd]
  · rw [exposesTilde, hread]
    simp only [hclause, hpairs, List.getLast?_concat, Option.any_some, hd, Option.isNone_none,
      Bool.true_and]
    rfl

/-- The arguments of a helper that works on a path come with the pairs behind the others. -/
theorem endsAs_onPath (huse : pathUse o p arguments = .lookUp call) :
    EndsAs o text (call.group o.accessor ++
      Text.spaced [call.helperArguments, (Call.read text).clause.getD []]) := by
  obtain ⟨-, hpairs, -⟩ := lookUp_eq_of_pathUse huse
  cases hclause : (Call.read text).clause with
  | some clause =>
      obtain ⟨gap, names, rfl⟩ := exists_eq_clauseText hclause
      have hend :=
        getLast?_append_spaced_concat (List.cons_ne_nil 'a' _ : clauseText gap names ≠ [])
        (call.group o.accessor) [call.helperArguments]
      refine ⟨'|', hend.trans (getLast?_clauseText gap names), rfl, fun _ => ?_⟩
      rw [exposesTilde, hread]
      simp only [hclause]
      rfl
  | none =>
      have hspaced : Text.spaced [call.helperArguments, Option.getD none []] =
          Text.spaced ([] ++ [call.helperArguments]) := by
        simp [Text.spaced, List.filter_cons]
      rw [hspaced, LookUp.helperArguments]
      obtain hempty | ⟨ps, k, hk⟩ := List.eq_nil_or_concat call.pairs
      · rw [hempty, List.append_nil, positional_eq_tokenize huse hempty]
        exact endsAs_positional hlast hread hclause (hpairs.symm.trans hempty) o.accessor
      · rw [List.concat_eq_append] at hk
        rw [hk, ← List.append_assoc]
        exact endsAs_pair hread hclause (hpairs.symm.trans hk) _ _

end OnPath

end Ends

theorem EndsAs.append_left {o : Options} {text u : Text} (h : EndsAs o text u) (s : Text) :
    EndsAs o text (s ++ u) := by
  obtain ⟨d, hd, hends⟩ := h
  have hne : u ≠ [] := by
    rintro rfl
    simp at hd
  exact ⟨d, (Text.getLast?_append_of_ne_nil hne).trans hd, hends⟩

theorem exists_ends_of_wrap {o : Options} (m : Markers) (c : Char) (r : Text) {text second : Text}
    {parts : List Text} (hsecond : second ≠ [])
    (hends : EndsAs o text (second ++ Text.spaced parts)) :
    ∃ u, m.wrap ((c :: r) :: second :: parts) = braced (m.lead ++ c :: (u ++ m.trail)) ∧
      EndsAs o text u := by
  refine ⟨r ++ [' '] ++ (second ++ Text.spaced parts), ?_, hends.append_left _⟩
  rw [Markers.wrap_eq_braced m (List.cons_ne_nil c r) hsecond]
  simp

/-- Between its markers a replacement begins with a name or like its tag, and it ends as told. -/
theorem Rewritten.exists_ends {o : Options} (ho : o.isValid = true) {m : Markers} {text new : Text}
    (h : Rewritten o m text new) (hstart : Text.Stops isBlank text)
    (hlast : ∀ c ∈ text.getLast?, isBlank c = false) :
    ∃ c u, new = braced (m.lead ++ c :: (u ++ m.trail)) ∧
      (isNameChar c = true ∨ text.head? = some c) ∧ EndsAs o text u := by
  have hthis : contextWord ≠ [] := by decide
  cases h with
  | @path text p call hplain hread huse =>
      obtain ⟨c, r, haccessor⟩ := List.exists_cons_of_ne_nil (isName_accessor ho).1
      have hends : EndsAs o text (contextWord ++ Text.spaced [call.literal]) := by
        refine ⟨'"', ?_, rfl, fun _ => ?_⟩
        · have hend := getLast?_append_spaced_concat (k := call.literal) (List.cons_ne_nil _ _)
            contextWord []
          rw [LookUp.literal, List.getLast?_concat] at hend
          exact hend
        · rw [exposesTilde, hread]
          rfl
      obtain ⟨u, hu, hends⟩ := exists_ends_of_wrap m c r hthis hends
      rw [haccessor]
      exact ⟨c, u, hu, .inl ((isName_accessor ho).2 c (by simp [haccessor])), hends⟩
  | @onContext text helper arguments hplain hread =>
      have hends := endsAs_onContext hlast hplain hread
      rw [expressionOf_of_opensBlock_eq_false hplain] at hread
      obtain ⟨rest, htokens, -⟩ := Expression.ofTokens_eq_onContext hread
      have hhelper : helper ∈ tokenize text := by simp [htokens]
      obtain ⟨c, r, rfl⟩ := List.exists_cons_of_ne_nil (ne_nil_of_mem_tokenize hhelper)
      obtain ⟨u, hu, hends⟩ := exists_ends_of_wrap m c r hthis hends
      exact ⟨c, u, hu, .inr (head?_of_tokenize_eq_cons htokens hstart).symm, hends⟩
  | @onPath text helper p arguments call hplain hread huse =>
      have hends := endsAs_onPath hlast hread huse
      rw [read_of_opensBlock_eq_false hplain] at hends
      rw [expressionOf_of_opensBlock_eq_false hplain] at hread
      obtain ⟨rest, htokens, -⟩ := Expression.ofTokens_eq_onPath hread
      have hhelper : helper ∈ tokenize text := by simp [htokens]
      obtain ⟨c, r, rfl⟩ := List.exists_cons_of_ne_nil (ne_nil_of_mem_tokenize hhelper)
      obtain ⟨u, hu, hends⟩ := exists_ends_of_wrap m c r (List.cons_ne_nil _ _) hends
      have hnew := wrap_concat_nil m [c :: r, call.group o.accessor, call.helperArguments]
      exact ⟨c, u, hnew.symm.trans hu, .inr (head?_of_tokenize_eq_cons htokens hstart).symm, hends⟩
  | @block sign text helper p arguments call hsign hread huse =>
      have hends := endsAs_onPath hlast hread huse
      rw [read_cons hsign] at hends
      obtain ⟨u, hu, hends⟩ := exists_ends_of_wrap m sign helper (List.cons_ne_nil _ _) hends
      exact ⟨sign, u, hu, .inr rfl, hends⟩

/-- A replacement that is read as a tag has the markers of the tag it replaces, and besides them one
at its end if the tag exposes a tilde. So its markers are the same unless a tilde is exposed in a
tag that has no marker at its end. -/
theorem markers_replacement (o : Options) (ho : o.isValid = true) (t : Tag) (text : Text)
    (h : t.decision o = .rewrite text) :
    ∃ new, text = braced new ∧
      (Markers.strip (Text.trim new)).2 =
        ⟨(Markers.strip t.body).2.trimsBefore,
          (Markers.strip t.body).2.trimsAfter || exposesTilde o (Markers.strip t.body).1,
          (Markers.strip t.body).2.raw⟩ ∧
      ((Markers.strip (Text.trim new)).2 = (Markers.strip t.body).2 ↔
        (exposesTilde o (Markers.strip t.body).1 = true →
          (Markers.strip t.body).2.trimsAfter = true)) := by
  have hstart : Text.Stops isBlank t.body := Text.stops_trim _
  have hend : ∀ c ∈ t.body.getLast?, isBlank c = false := Text.getLast?_trim _
  obtain ⟨-, hrewritten⟩ := rewritten_of_ofBody_eq_rewrite h
  obtain ⟨c, u, rfl, hc, d, hd, hblank, htilde⟩ :=
    hrewritten.exists_ends ho (Text.stops_trim _) (Text.getLast?_trim _)
  have hprecedes : (Markers.strip t.body).2.Precedes c :=
    hc.elim (Markers.precedes_of_isNameChar _) (Markers.precedes_of_strip hstart)
  have htilde := fun hafter => htilde (Markers.getLast?_strip hend hafter)
  have hmarkers := Markers.strip_trim_enclosed hprecedes hd hblank
  generalize exposesTilde o (Markers.strip t.body).1 = exposed at htilde ⊢
  generalize (Markers.strip t.body).2 = m at htilde hmarkers ⊢
  have hafter : (m.trimsAfter || d == '~') = (m.trimsAfter || exposed) := by
    cases hm : m.trimsAfter with
    | true => rfl
    | false => exact htilde hm
  rw [hafter] at hmarkers
  refine ⟨_, rfl, hmarkers, ?_⟩
  rw [hmarkers]
  obtain ⟨before, after, raw⟩ := m
  cases after <;> cases exposed <;> simp

/-- All three markers, and a pair that is moved to the end with its tilde. -/
theorem markers_replacement_moved :
    ∃ new, braced "~&h (convertFromDotNotation this \"p[0]\" k=~) x k=~~".toList = braced new ∧
      (Markers.strip (Text.trim new)).2 = ⟨true, true, true⟩ := by
  have hdecision : Tag.decision Options.default ⟨"~& h p[0] k=~ x~".toList, .start⟩ =
      .rewrite (braced "~&h (convertFromDotNotation this \"p[0]\" k=~) x k=~~".toList) := by
    decide +kernel
  obtain ⟨new, hnew, hmarkers, -⟩ := markers_replacement Options.default (by decide +kernel)
    ⟨"~& h p[0] k=~ x~".toList, .start⟩ _ hdecision
  refine ⟨new, hnew, hmarkers.trans ?_⟩
  decide +kernel

/-- A pair that ends with a tilde is moved next to the braces, where the tilde is a marker. -/
theorem not_markers_replacement :
    ¬ ∀ (o : Options) (t : Tag) (new : Text), o.isValid = true →
      t.decision o = .rewrite (braced new) →
      (Markers.strip (Text.trim new)).2 = (Markers.strip t.body).2 := by
  intro h
  have hmarkers := h Options.default ⟨"h p[0] k=~ x".toList, .start⟩
    "h (convertFromDotNotation this \"p[0]\" k=~) x k=~".toList
    (by decide +kernel) (by decide +kernel)
  revert hmarkers
  decide +kernel

end MustachePath
