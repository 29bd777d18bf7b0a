import MustachePath.Proofs.Clauses
import MustachePath.Proofs.Replacements

/-!
# Replacements of a block's opening tag

Reading such a replacement again, a clause for block parameters must not be found inside of the
call, though the bars of the path and of the pairs stand there. A clause that began in the call
would have its second bar at the end of the tag. The first bar cannot be that of the last pair,
which ends with the same bar and has no white space before it (`no_clause_of_pairs`); and if it
stood in the path, the clause would have been found the first time (`no_clause_of_path`).
-/

namespace MustachePath

/-- A bar at the end of a pair, with only white space and tildes behind it, has no white space
before it. -/
theorem bar_of_isPairShaped {k y n e : Text} (hpair : isPairShaped k = true)
    (hclosed : Token.EndsClosed k ∨ ∀ c ∈ k, isBlank c = false)
    (he : ∀ c ∈ e, isBlank c = true ∨ c = '~') (h : y ++ k = n ++ '|' :: e) :
    ∃ a b, k = a ++ b :: '|' :: e ∧ isBlank b = false := by
  obtain ⟨key, value, hkey, hk⟩ := exists_eq_of_isPairShaped hpair
  have hequals : '=' ∉ '|' :: e := by
    intro hmem
    obtain h | h := List.mem_cons.1 hmem
    · exact absurd h (by decide)
    · obtain h | h := he _ h <;> exact absurd h (by decide)
  obtain ⟨a, ha⟩ : ∃ a, k = a ++ '|' :: e := by
    obtain ⟨a, -, ha⟩ | ⟨a, -, ha⟩ := List.append_eq_append_iff.1 h
    · exact ⟨a, ha⟩
    · exact absurd (by rw [ha, hk]; simp) hequals
  have hopen : ¬ Token.EndsClosed k := by
    rintro ⟨c, hc, hcases⟩
    have hmem : c ∈ '|' :: e := by
      rw [ha, Text.getLast?_append_of_ne_nil (by simp)] at hc
      exact List.mem_of_getLast? hc
    obtain rfl | hmem := List.mem_cons.1 hmem
    · obtain h | h | h := hcases <;> exact absurd h (by decide)
    · obtain h | rfl := he c hmem
      · obtain rfl | rfl | rfl := hcases <;> exact absurd h (by decide)
      · obtain h | h | h := hcases <;> exact absurd h (by decide)
  have hblank := hclosed.resolve_left hopen
  obtain rfl | ⟨u, b, rfl⟩ := List.eq_nil_or_concat a
  · obtain ⟨hne, hname⟩ := hkey
    cases key with
    | nil => exact absurd rfl hne
    | cons d key =>
        rw [ha, List.nil_append, List.cons_append, List.cons.injEq] at hk
        exact absurd (hname d (by simp)) (by rw [← hk.1]; decide)
  · refine ⟨u, b, by simpa using ha, hblank b ?_⟩
    rw [ha]
    simp

/-- The end of a replacement with a clause has both bars of the clause. -/
theorem two_bars_of_clause {m : Markers} {suffix clause arguments n : Text}
    (h : blockClause? suffix = some clause)
    (hn : Markers.reread (Text.spaced [arguments, clause] ++ m.trail) = n ++ ['|']) :
    '|' ∈ n := by
  obtain ⟨lead, gap, names, trail, -, -, rfl⟩ := blockClause?_eq_some_iff.1 h
  obtain ⟨y, hy⟩ : ∃ y, Text.spaced [arguments, clauseText gap names] =
      (y ++ 'a' :: 's' :: (gap ++ '|' :: names)) ++ ['|'] := by
    by_cases hnil : arguments = []
    · exact ⟨[' '], by simp [Text.spaced, hnil, clauseText]⟩
    · exact ⟨' ' :: arguments ++ [' '], by simp [Text.spaced, hnil, clauseText]⟩
  have htrim : Text.trimEnd (Text.spaced [arguments, clauseText gap names]) =
      Text.spaced [arguments, clauseText gap names] := by
    apply Text.trimEnd_eq_self
    intro c hc
    rw [hy, List.getLast?_concat, Option.mem_some] at hc
    rw [← hc]
    rfl
  have hreread : Markers.reread (Text.spaced [arguments, clauseText gap names] ++ m.trail) =
      Text.trimEnd (Text.spaced [arguments, clauseText gap names]) := by
    apply Markers.reread_trail
    rw [htrim, hy, List.getLast?_concat]
    exact Or.inr (by decide)
  rw [hreread, htrim, hy] at hn
  rw [← (List.append_inj' hn rfl).1]
  simp

/-- No clause begins in a call of the accessor before the path. -/
theorem splitBlockClause_call {helper accessor : Text} (hhelper : IsName helper)
    (haccessor : IsName accessor) (rest : Text) :
    (splitBlockClause (helper ++ (' ' :: '(' :: (accessor ++
      (' ' :: (contextWord ++ (' ' :: '"' :: rest))))))).1 =
      helper ++ (' ' :: '(' :: (accessor ++
        (' ' :: (contextWord ++ (' ' :: '"' :: (splitBlockClause rest).1))))) := by
  have hopen : ∀ c ∈ ['('], isBlank c = false := by simp [isBlank]
  have hquote : ∀ c ∈ ['"'], isBlank c = false := by simp [isBlank]
  have hthis : contextWord = 't' :: ['h', 'i', 's'] := rfl
  have hgroup := splitBlockClause_of_nonblank hopen
  have hliteral := splitBlockClause_of_nonblank hquote rest
  simp only [List.cons_append, List.nil_append] at hgroup hliteral
  rw [splitBlockClause_of_nonblank hhelper.nonblank, splitBlockClause_space rfl (by decide), hgroup,
    splitBlockClause_of_nonblank haccessor.nonblank]
  have hspace := splitBlockClause_space (c := 't') rfl (by decide)
    ('h' :: 'i' :: 's' :: (' ' :: '"' :: rest))
  have hword := splitBlockClause_of_nonblank isName_contextWord.nonblank (' ' :: '"' :: rest)
  simp only [hthis, List.cons_append, List.nil_append] at hspace hword ⊢
  rw [hspace, hword, splitBlockClause_space rfl (by decide), hliteral]

/-- Arguments without pairs keep their characters but for white space. -/
theorem filter_helperArguments {o : Options} {p r : Text} {arguments : Option Text}
    {call : LookUp} (harguments : arguments.getD [] = Text.joinSpaced (tokenize r))
    (huse : pathUse o p arguments = .lookUp call) (hpairs : call.pairs = []) :
    call.helperArguments.filter (!isBlank ·) = r.filter (!isBlank ·) := by
  have hpositional := positional_eq_tokenize huse hpairs
  calc call.helperArguments.filter (!isBlank ·)
      = (tokenize (arguments.getD [])).flatten.filter (!isBlank ·) := by
        rw [LookUp.helperArguments, hpairs, List.append_nil, Text.filter_joinSpaced, hpositional]
    _ = (Text.joinSpaced (tokenize r)).filter (!isBlank ·) := by
        rw [filter_flatten_tokenize, harguments]
    _ = r.filter (!isBlank ·) := by
        rw [Text.filter_joinSpaced, filter_flatten_tokenize]

/-- A bar that ends the arguments of a block without clause and pairs ends the block's text. -/
theorem filter_eq_of_reread {m : Markers} {u r H n : Text}
    (hlast : ∀ c ∈ (u ++ r).getLast?, isBlank c = false)
    (htilde : m.trimsAfter = false → (u ++ r).getLast? ≠ some '~')
    (hfilter : H.filter (!isBlank ·) = r.filter (!isBlank ·))
    (hn : Markers.reread (Text.spaced [H, []] ++ m.trail) = n ++ ['|']) :
    r.filter (!isBlank ·) = n.filter (!isBlank ·) ++ ['|'] := by
  have hspaced : (Text.spaced [H, []]).filter (!isBlank ·) = r.filter (!isBlank ·) := by
    rw [← hfilter]
    have hspace : isBlank ' ' = true := rfl
    by_cases hnil : H = []
    · simp [Text.spaced, hnil]
    · simp [Text.spaced, hnil, hspace]
  have hreread : Markers.reread (Text.spaced [H, []] ++ m.trail) =
      Text.trimEnd (Text.spaced [H, []]) := by
    apply Markers.reread_trail
    cases hafter : m.trimsAfter with
    | true => exact Or.inl rfl
    | false =>
        right
        intro hcontra
        rw [← Text.getLast?_filter_trimEnd, hspaced] at hcontra
        have hr : r ≠ [] := by
          rintro rfl
          simp at hcontra
        have htrim : Text.trimEnd r = r := by
          apply Text.trimEnd_eq_self
          intro c hc
          exact hlast c (by rw [Text.getLast?_append_of_ne_nil hr]; exact hc)
        rw [Text.getLast?_filter_trimEnd, htrim] at hcontra
        exact htilde hafter (by rw [Text.getLast?_append_of_ne_nil hr, hcontra])
  rw [← hspaced, ← Text.filter_trimEnd, ← hreread, hn, List.filter_append]
  rfl

/-- A clause that began in the path of a block would have been found the first time. -/
theorem clauseAt?_of_bar_in_path {p r front lead gap g f : Text} {c : Char}
    (hc : isBlank c = true) (hlead : lead.all isBlank = true) (hne : gap ≠ [])
    (hgap : gap.all isBlank = true)
    (hp : protectQuotes p = front ++ c :: (lead ++ 'a' :: 's' :: (gap ++ '|' :: g)))
    (hg : '|' ∉ g) (hf : '|' ∉ f) (hr : r.filter (!isBlank ·) = f ++ ['|']) :
    ∃ front' suffix, p ++ r = front' ++ c :: suffix ∧ clauseAt? c suffix ≠ none := by
  have hplain : ∀ w : Text, w.all isBlank = true → '"' ∉ w ∧ '\\' ∉ w := by
    intro w hw
    constructor
    · intro h
      exact absurd (List.all_eq_true.1 hw _ h) (by decide)
    · intro h
      exact absurd (List.all_eq_true.1 hw _ h) (by decide)
  have hunquoted : Unquoted (c :: (lead ++ 'a' :: 's' :: (gap ++ ['|']))) := by
    obtain ⟨hc₁, hc₂⟩ := hplain [c] (by simpa using hc)
    obtain ⟨hl₁, hl₂⟩ := hplain lead hlead
    obtain ⟨hg₁, hg₂⟩ := hplain gap hgap
    simp only [List.mem_singleton] at hc₁ hc₂
    constructor
    · simp [hc₁, hl₁, hg₁]
    · simp [hc₂, hl₂, hg₂]
  have hp' : protectQuotesFrom false p =
      front ++ c :: ((lead ++ 'a' :: 's' :: (gap ++ ['|'])) ++ g) := by
    rw [← protectQuotes, hp]
    simp
  obtain ⟨front', g', rfl, hg'⟩ := eq_append_of_protectQuotesFrom hunquoted hp'
  have hbar : '|' ∉ g' := fun h => hg (by rw [hg']; exact mem_protectQuotesFrom h)
  obtain ⟨n, w, rfl, hn, hw⟩ := exists_eq_of_filter_eq hf hr
  refine ⟨front', lead ++ 'a' :: 's' :: (gap ++ '|' :: ((g' ++ n) ++ '|' :: w)), by simp, ?_⟩
  have hclause :
      blockClause? (c :: (lead ++ 'a' :: 's' :: (gap ++ '|' :: ((g' ++ n) ++ '|' :: w)))) =
        some (clauseText gap (g' ++ n)) := by
    refine blockClause?_eq_some_iff.2 ⟨c :: lead, gap, g' ++ n, w, ⟨?_, hne, hgap, ?_, hw⟩, ?_, rfl⟩
    · simp [hc, hlead]
    · simp [hbar, hn]
    · simp
  rw [clauseAt?, if_pos hc, hclause]
  exact Option.some_ne_none _

/-- The end of the accessor's call, from the path on. -/
def LookUp.callEnd (call : LookUp) : Text :=
  protectQuotes call.path ++ ('"' :: (call.pairs.flatMap (fun t => ' ' :: t) ++ [')']))

/-- The bar before the end of a call is that of its last pair, if that pair ends with a bar. -/
theorem not_blank_of_last_pair {call : LookUp} {front gap g a e : Text} {b : Char}
    {ps : List Text} (hpairs : call.pairs = ps ++ [a ++ b :: '|' :: e]) (hb : isBlank b = false)
    (he : ∀ c ∈ e, isBlank c = true ∨ c = '~') (hne : gap ≠ []) (hgap : gap.all isBlank = true)
    (hg : '|' ∉ g) (h : call.callEnd = (front ++ gap) ++ '|' :: g) : False := by
  have hcall : call.callEnd = (protectQuotes call.path ++
      '"' :: (ps.flatMap (fun t => ' ' :: t) ++ ' ' :: a) ++ [b]) ++ '|' :: (e ++ [')']) := by
    simp [LookUp.callEnd, hpairs]
  have hbar : '|' ∉ e ++ [')'] := by
    intro hmem
    obtain hmem | hmem := List.mem_append.1 hmem
    · obtain h | h := he _ hmem <;> exact absurd h (by decide)
    · exact absurd hmem (by decide)
  obtain ⟨heq, -⟩ := eq_of_last_bar hbar hg (hcall.symm.trans h)
  obtain hnil | ⟨u, c, rfl⟩ := List.eq_nil_or_concat gap
  · exact hne hnil
  · rw [List.concat_eq_append, ← List.append_assoc] at heq
    have hbc := (List.cons.inj (List.append_inj' heq rfl).2).1
    rw [hbc, List.all_eq_true.1 hgap c (by simp)] at hb
    exact absurd hb (by simp)

section BlockCall

variable {o : Options} {m : Markers} {text helper p : Text} {arguments : Option Text}
  {call : LookUp}

/-- The end of the replacement of a block's opening tag, when it is read again. -/
def blockEnd (m : Markers) (text : Text) (call : LookUp) : Text :=
  Markers.reread
    (Text.spaced [call.helperArguments, (splitBlockClause text).2.getD []] ++ m.trail)

/-- Without clause and with pairs, no clause begins in the call. -/
theorem no_clause_of_pairs (huse : pathUse o p arguments = .lookUp call)
    (hnone : (splitBlockClause text).2 = none) (hpairs : call.pairs ≠ [])
    {front gap g n : Text} (hne : gap ≠ []) (hgap : gap.all isBlank = true) (hg : '|' ∉ g)
    (hcall : call.callEnd = (front ++ gap) ++ '|' :: g) (hend : blockEnd m text call = n ++ ['|']) :
    False := by
  obtain hnil | ⟨ps, k, hk⟩ := List.eq_nil_or_concat call.pairs
  · exact hpairs hnil
  · rw [List.concat_eq_append] at hk
    have hmem : k ∈ (tokenize (arguments.getD [])).filter isPairShaped := by
      rw [← (lookUp_eq_of_pathUse huse).2.1, hk]
      simp
    obtain ⟨htoken, hpair⟩ := List.mem_filter.1 hmem
    obtain ⟨y, hy⟩ := Text.joinSpaced_concat (call.positional ++ ps) k
    have harguments : call.helperArguments = y ++ k := by
      rw [LookUp.helperArguments, hk, ← List.append_assoc, hy]
    have hkne : k ≠ [] := by
      obtain ⟨key, value, -, rfl⟩ := exists_eq_of_isPairShaped hpair
      simp
    have hspaced : Text.spaced [call.helperArguments, (splitBlockClause text).2.getD []] =
        (' ' :: y) ++ k := by
      simp [Text.spaced, hnone, harguments, hkne]
    obtain ⟨e, he, hblank⟩ := Markers.exists_eq_reread_append m
      (Text.spaced [call.helperArguments, (splitBlockClause text).2.getD []])
    rw [← blockEnd, hend, hspaced, List.append_assoc] at he
    obtain ⟨a, b, rfl, hb⟩ :=
      bar_of_isPairShaped hpair (endsClosed_or_of_isPairShaped htoken hpair) hblank he
    exact not_blank_of_last_pair hk hb hblank hne hgap hg hcall

/-- Without clause and pairs, no clause begins in the call. -/
theorem no_clause_of_path
    (hread : Expression.ofTokens o.widgetHelpers (tokenize (splitBlockClause text).1) =
      .onPath helper p arguments)
    (huse : pathUse o p arguments = .lookUp call)
    (hlast : ∀ c ∈ text.getLast?, isBlank c = false)
    (htilde : m.trimsAfter = false → text.getLast? ≠ some '~')
    (hnone : (splitBlockClause text).2 = none) (hpairs : call.pairs = [])
    {front lead gap g n : Text} {c : Char} (hc : isBlank c = true) (hlead : lead.all isBlank = true)
    (hne : gap ≠ []) (hgap : gap.all isBlank = true) (hg : '|' ∉ g) (hn : '|' ∉ n)
    (hcall : call.callEnd = front ++ c :: (lead ++ 'a' :: 's' :: (gap ++ '|' :: g)))
    (hend : blockEnd m text call = n ++ ['|']) : False := by
  obtain ⟨hwhole, hlater⟩ := splitBlockClause_eq_none hnone
  have hpath := (lookUp_eq_of_pathUse huse).1
  -- The bar stands in the escaped path, as there are no pairs.
  obtain ⟨g', hp, hg'⟩ : ∃ g', protectQuotes p =
      front ++ c :: (lead ++ 'a' :: 's' :: (gap ++ '|' :: g')) ∧ '|' ∉ g' := by
    have hsplit : protectQuotes p ++ ['"', ')'] =
        (front ++ c :: (lead ++ 'a' :: 's' :: gap)) ++ '|' :: g := by
      rw [LookUp.callEnd, hpairs, hpath] at hcall
      simpa using hcall
    obtain ⟨a, -, ha⟩ | ⟨a, ha, ha'⟩ := List.append_eq_append_iff.1 hsplit
    · have hmem : '|' ∈ ['"', ')'] := by rw [ha]; simp
      exact absurd hmem (by decide)
    · cases a with
      | nil =>
          simp only [List.nil_append, List.cons.injEq] at ha'
          exact absurd ha'.1 (by decide)
      | cons d g' =>
          simp only [List.cons_append, List.cons.injEq] at ha'
          obtain ⟨rfl, rfl⟩ := ha'
          exact ⟨g', by rw [ha]; simp, fun h => hg (List.mem_append_left _ h)⟩
  rw [hwhole] at hread
  obtain ⟨u, r, htext, harguments⟩ := exists_rest_of_ofTokens hread
  rw [← List.append_assoc] at htext
  have hfilter := filter_helperArguments harguments huse hpairs
  have hbar : r.filter (!isBlank ·) = n.filter (!isBlank ·) ++ ['|'] := by
    rw [htext] at hlast htilde
    apply filter_eq_of_reread hlast htilde hfilter
    rw [← hend, blockEnd, hnone]
    rfl
  have hf : '|' ∉ n.filter (!isBlank ·) := fun h => hn (List.mem_filter.1 h).1
  obtain ⟨front', suffix, hfound, hclause⟩ :=
    clauseAt?_of_bar_in_path hc hlead hne hgap hp hg' hf hbar
  apply hclause
  apply hlater (u ++ front') c suffix
  rw [htext, List.append_assoc, hfound, List.append_assoc]

/-- No clause begins in the call of a block's replacement, from the path on. -/
theorem clauseAt?_callEnd
    (hread : Expression.ofTokens o.widgetHelpers (tokenize (splitBlockClause text).1) =
      .onPath helper p arguments)
    (huse : pathUse o p arguments = .lookUp call)
    (hlast : ∀ c ∈ text.getLast?, isBlank c = false)
    (htilde : m.trimsAfter = false → text.getLast? ≠ some '~') {pre suffix : Text} {c : Char}
    (hcall : call.callEnd = pre ++ c :: suffix) :
    clauseAt? c (suffix ++ blockEnd m text call) = none := by
  unfold clauseAt?
  split
  · rename_i hc
    cases hclause : blockClause? (c :: (suffix ++ blockEnd m text call)) with
    | none => rfl
    | some clause =>
        exfalso
        have hg : (c :: suffix).getLast? = some ')' := by
          rw [← Text.getLast?_append_of_ne_nil (s := pre) (by simp), ← hcall, LookUp.callEnd]
          simp [List.getLast?_cons]
        have hkept : ∀ c ∈ (blockEnd m text call).getLast?, isBlank c = false :=
          Markers.getLast?_reread _
        obtain ⟨lead, gap, g, n, hfront, hlead, hne, hgap, hbar, hend, hn⟩ :=
          bars_of_blockClause? hg hkept hclause
        cases lead with
        | nil =>
            rw [List.nil_append, List.cons.injEq] at hfront
            rw [hfront.1] at hc
            exact absurd hc (by decide)
        | cons d lead =>
            obtain ⟨rfl, rfl⟩ := List.cons.inj hfront
            have hlead' : lead.all isBlank = true := by simpa [hc] using hlead
            cases hsplit : (splitBlockClause text).2 with
            | some found =>
                obtain ⟨rest, -, hfound⟩ := splitBlockClause_eq_some hsplit
                rw [blockEnd, hsplit] at hend
                exact hn (two_bars_of_clause hfound hend)
            | none =>
                by_cases hpairs : call.pairs = []
                · exact no_clause_of_path hread huse hlast htilde hsplit hpairs hc hlead' hne hgap
                    hbar hn hcall hend
                · have hcall' : call.callEnd =
                      (pre ++ c :: (lead ++ ['a', 's']) ++ gap) ++ '|' :: g := by
                    rw [hcall]
                    simp
                  exact no_clause_of_pairs huse hsplit hpairs hne hgap hbar hcall' hend
  · rfl

theorem LookUp.callText_eq (call : LookUp) (accessor rest : Text) :
    '(' :: call.callText accessor ++ ')' :: rest =
      '(' :: (accessor ++ (' ' :: (contextWord ++ (' ' :: '"' :: (call.callEnd ++ rest))))) := by
  simp [LookUp.callText, Text.joinSpaced_cons, LookUp.literal, LookUp.callEnd]

end BlockCall

end MustachePath
