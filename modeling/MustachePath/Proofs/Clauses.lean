import MustachePath.Mustache.Decision
import MustachePath.Proofs.Tokens

/-!
# Where the clause for block parameters begins

A clause is the word `as` and names between two bars, after white space and at the end of the text
(`blockClause?_eq_some_iff`). The text of a block's opening tag divides before the first place where
one stands: nothing before that place is taken for a clause, and without a clause no place is.
-/

namespace MustachePath

/-- A clause for block parameters at the end of a text, with white space around it. -/
structure Clause (lead gap names trail : Text) : Prop where
  lead_blank : lead.all isBlank = true
  gap_ne_nil : gap ≠ []
  gap_blank : gap.all isBlank = true
  no_bar : '|' ∉ names
  trail_blank : trail.all isBlank = true

/-- A clause as it is written, from the word `as` to the second bar. -/
def clauseText (gap names : Text) : Text := 'a' :: 's' :: (gap ++ '|' :: (names ++ ['|']))

theorem getLast?_clauseText (gap names : Text) : (clauseText gap names).getLast? = some '|' := by
  have hconcat : clauseText gap names = 'a' :: 's' :: (gap ++ '|' :: names) ++ ['|'] := by
    simp [clauseText]
  rw [hconcat, List.getLast?_concat]

/-- A clause holds only characters of the text around it. -/
theorem mem_of_mem_clauseText {c : Char} {lead gap names trail : Text}
    (h : c ∈ clauseText gap names) :
    c ∈ lead ++ 'a' :: 's' :: (gap ++ '|' :: (names ++ '|' :: trail)) := by
  have heq : lead ++ 'a' :: 's' :: (gap ++ '|' :: (names ++ '|' :: trail)) =
      lead ++ (clauseText gap names ++ trail) := by
    simp [clauseText]
  rw [heq]
  exact List.mem_append_right lead (List.mem_append_left trail h)

theorem readUntil?_bar_eq_some {cs inner r : Text}
    (h : Token.readUntil? '|' '|' cs = some (inner, r)) :
    ∃ names, '|' ∉ names ∧ inner = names ++ ['|'] ∧ cs = names ++ '|' :: r := by
  induction cs generalizing inner with
  | nil => simp [Token.readUntil?] at h
  | cons c cs ih =>
      simp only [Token.readUntil?] at h
      split at h
      · rename_i hc
        simp only [Option.some.injEq, Prod.mk.injEq] at h
        exact ⟨[], by simp, by simp [← h.1, hc], by simp [← h.2, hc]⟩
      · rename_i hc
        simp only [Option.map_eq_some_iff, Token.before, Prod.mk.injEq, Prod.exists] at h
        obtain ⟨b, s, hb, rfl, rfl⟩ := h
        obtain ⟨names, hbar, rfl, rfl⟩ := ih hb
        exact ⟨c :: names, by simp [hbar, Ne.symm hc], rfl, rfl⟩

/-- A text holds a clause at its front exactly if nothing but white space stands around it. -/
theorem blockClause?_eq_some_iff {cs clause : Text} :
    blockClause? cs = some clause ↔ ∃ lead gap names trail, Clause lead gap names trail ∧
      cs = lead ++ 'a' :: 's' :: (gap ++ '|' :: (names ++ '|' :: trail)) ∧
      clause = clauseText gap names := by
  constructor
  · intro h
    obtain ⟨lead, hlead, hblank⟩ := Token.append_trimStart cs
    unfold blockClause? at h
    split at h
    · rename_i r hr
      split at h
      · rename_i gap names hgap
        obtain ⟨hr', hne⟩ := Token.readWhile?_eq_some hgap
        have hgapBlank : gap.all isBlank = true :=
          List.all_eq_true.2 (Token.all_of_readWhile?_eq_some hgap).1
        split at h
        · rename_i inner trail hinner
          obtain ⟨n, hbar, rfl, rfl⟩ := readUntil?_bar_eq_some hinner
          split at h
          · rename_i htrail
            simp only [Option.some.injEq] at h
            refine ⟨lead, gap, n, trail, ⟨hblank, hne, hgapBlank, hbar, htrail⟩, ?_, ?_⟩
            · rw [hlead, hr, hr']
            · simp [← h, clauseText]
          · simp at h
        · simp at h
      · simp at h
    · simp at h
  · rintro ⟨lead, gap, names, trail, ⟨hlead, hne, hgap, hbar, htrail⟩, rfl, rfl⟩
    have ha : isBlank 'a' = false := rfl
    have hstart : Text.trimStart (lead ++ 'a' :: 's' :: (gap ++ '|' :: (names ++ '|' :: trail))) =
        'a' :: 's' :: (gap ++ '|' :: (names ++ '|' :: trail)) := by
      rw [Text.trimStart_append hlead, Text.trimStart_eq_self (Text.stops_cons.2 ha)]
    have hread : Token.readWhile? isBlank (gap ++ '|' :: (names ++ '|' :: trail)) =
        some (gap, '|' :: (names ++ '|' :: trail)) :=
      Token.readWhile?_append hne (List.all_eq_true.1 hgap) (Text.stops_cons.2 rfl)
    simp [blockClause?, hstart, hread, Token.readUntil?_append hbar hbar, htrail, clauseText]

/-- Whether white space begins a text and a clause follows it. -/
def clauseAt? (c : Char) (cs : Text) : Option Text :=
  if isBlank c then blockClause? (c :: cs) else none

theorem splitBlockClause_cons (c : Char) (cs : Text) :
    splitBlockClause (c :: cs) =
      match clauseAt? c cs with
      | some clause => ([], some clause)
      | none => (c :: (splitBlockClause cs).1, (splitBlockClause cs).2) := by
  -- The equation lemma of the definition would evaluate `isBlank` at an unknown character.
  delta splitBlockClause
  dsimp only
  rfl

theorem splitBlockClause_cons_of_some {c : Char} {cs clause : Text}
    (h : clauseAt? c cs = some clause) : splitBlockClause (c :: cs) = ([], some clause) := by
  rw [splitBlockClause_cons, h]

theorem splitBlockClause_cons_of_none {c : Char} {cs : Text} (h : clauseAt? c cs = none) :
    splitBlockClause (c :: cs) = (c :: (splitBlockClause cs).1, (splitBlockClause cs).2) := by
  rw [splitBlockClause_cons, h]

/-- A text that does not end with a clause stays whole, and no place of it begins one. -/
theorem splitBlockClause_eq_none {cs : Text} (h : (splitBlockClause cs).2 = none) :
    (splitBlockClause cs).1 = cs ∧
      ∀ pre c suffix, cs = pre ++ c :: suffix → clauseAt? c suffix = none := by
  induction cs with
  | nil => exact ⟨rfl, by simp⟩
  | cons d cs ih =>
      cases hat : clauseAt? d cs with
      | some found =>
          rw [splitBlockClause_cons_of_some hat] at h
          simp at h
      | none =>
          rw [splitBlockClause_cons_of_none hat] at h ⊢
          obtain ⟨hwhole, hlater⟩ := ih h
          refine ⟨by rw [hwhole], fun pre c suffix hcs => ?_⟩
          cases pre with
          | nil =>
              simp only [List.nil_append, List.cons.injEq] at hcs
              obtain ⟨rfl, rfl⟩ := hcs
              exact hat
          | cons e pre =>
              simp only [List.cons_append, List.cons.injEq] at hcs
              exact hlater pre c suffix hcs.2

/-- The first part of a divided text and the clause are all of it but white space. -/
theorem splitBlockClause_eq_some {cs clause : Text} (h : (splitBlockClause cs).2 = some clause) :
    ∃ suffix, cs = (splitBlockClause cs).1 ++ suffix ∧ blockClause? suffix = some clause := by
  induction cs with
  | nil =>
      have hnil : (splitBlockClause []).2 = none := rfl
      rw [hnil] at h
      simp at h
  | cons d cs ih =>
      cases hat : clauseAt? d cs with
      | some found =>
          rw [splitBlockClause_cons_of_some hat] at h ⊢
          refine ⟨d :: cs, rfl, ?_⟩
          unfold clauseAt? at hat
          split at hat
          · rw [hat]
            exact h
          · simp at hat
      | none =>
          rw [splitBlockClause_cons_of_none hat] at h ⊢
          obtain ⟨suffix, hcs, hclause⟩ := ih h
          exact ⟨suffix, by rw [List.cons_append, ← hcs], hclause⟩

/-- The first part of a divided text is a prefix of it. -/
theorem isPrefix_splitBlockClause (cs : Text) : (splitBlockClause cs).1 <+: cs := by
  cases h : (splitBlockClause cs).2 with
  | none =>
      have hfront := (splitBlockClause_eq_none h).1
      exact ⟨[], by rw [List.append_nil, hfront]⟩
  | some clause =>
      obtain ⟨suffix, hcs, -⟩ := splitBlockClause_eq_some h
      exact ⟨suffix, hcs.symm⟩

/-- A text at whose places no clause begins stays before the place where the rest divides. -/
theorem splitBlockClause_append {front : Text} (rest : Text)
    (h : ∀ pre c suffix, front = pre ++ c :: suffix → clauseAt? c (suffix ++ rest) = none) :
    splitBlockClause (front ++ rest) =
      (front ++ (splitBlockClause rest).1, (splitBlockClause rest).2) := by
  induction front with
  | nil => rfl
  | cons d front ih =>
      have hlater : ∀ pre c suffix, front = pre ++ c :: suffix →
          clauseAt? c (suffix ++ rest) = none := by
        intro pre c suffix hfront
        exact h (d :: pre) c suffix (by rw [hfront, List.cons_append])
      rw [List.cons_append, splitBlockClause_cons_of_none (h [] d front rfl), ih hlater]
      rfl

theorem splitBlockClause_of_nonblank {front : Text} (h : ∀ c ∈ front, isBlank c = false)
    (rest : Text) : splitBlockClause (front ++ rest) =
      (front ++ (splitBlockClause rest).1, (splitBlockClause rest).2) := by
  apply splitBlockClause_append
  intro pre c suffix hfront
  rw [clauseAt?, h c (by simp [hfront])]
  rfl

/-- White space before anything but the first letter of a clause begins no clause. -/
theorem splitBlockClause_blank_append {w : Text} (hw : w.all isBlank = true) {c : Char}
    (hc : isBlank c = false) (ha : c ≠ 'a') (rest : Text) :
    splitBlockClause (w ++ c :: rest) =
      (w ++ (splitBlockClause (c :: rest)).1, (splitBlockClause (c :: rest)).2) := by
  apply splitBlockClause_append
  intro pre d suffix hsplit
  have hblank : (d :: suffix).all isBlank = true := by
    rw [hsplit, List.all_append, Bool.and_eq_true] at hw
    exact hw.2
  have hstart : Text.trimStart (d :: (suffix ++ c :: rest)) = c :: rest := by
    rw [← List.cons_append, Text.trimStart_append hblank,
      Text.trimStart_eq_self (Text.stops_cons.2 hc)]
  have hnone : blockClause? (d :: (suffix ++ c :: rest)) = none := by
    unfold blockClause?
    rw [hstart]
    split
    · rename_i heq
      exact absurd (List.cons.inj heq).1 ha
    · rfl
  simp [clauseAt?, hnone]

theorem splitBlockClause_space {c : Char} (hc : isBlank c = false) (ha : c ≠ 'a') (rest : Text) :
    splitBlockClause (' ' :: c :: rest) =
      (' ' :: (splitBlockClause (c :: rest)).1, (splitBlockClause (c :: rest)).2) :=
  splitBlockClause_blank_append (w := [' ']) rfl hc ha rest

/-- Of two divisions of a text at its last bar, both are the same. -/
theorem eq_of_last_bar {x x' y y' : Text} (hy : '|' ∉ y) (hy' : '|' ∉ y')
    (h : x ++ '|' :: y = x' ++ '|' :: y') : x = x' ∧ y = y' := by
  obtain ⟨a, rfl, ha⟩ | ⟨a, rfl, ha⟩ := List.append_eq_append_iff.1 h
  · cases a with
    | nil => exact ⟨by simp, by simpa using ha⟩
    | cons b a =>
        simp only [List.cons_append, List.cons.injEq] at ha
        exact absurd (by simp [ha.2]) hy
  · cases a with
    | nil => exact ⟨by simp, by simpa using ha.symm⟩
    | cons b a =>
        simp only [List.cons_append, List.cons.injEq] at ha
        exact absurd (by simp [ha.2]) hy'

/-- A clause at the end of a text that does not end with white space ends with the text's last
character. -/
theorem getLast?_of_blockClause? {cs clause : Text} (h : blockClause? cs = some clause)
    (hlast : ∀ c ∈ cs.getLast?, isBlank c = false) : cs.getLast? = some '|' := by
  obtain ⟨lead, gap, names, trail, hclause, rfl, -⟩ := blockClause?_eq_some_iff.1 h
  have hsplit : lead ++ 'a' :: 's' :: (gap ++ '|' :: (names ++ '|' :: trail)) =
      (lead ++ 'a' :: 's' :: (gap ++ '|' :: names)) ++ '|' :: trail := by
    simp
  rw [hsplit] at hlast ⊢
  obtain rfl | ⟨u, c, rfl⟩ := List.eq_nil_or_concat trail
  · exact List.getLast?_concat
  · have hc := hlast c (by simp [List.getLast?_cons])
    rw [List.all_eq_true.1 hclause.trail_blank c (by simp)] at hc
    exact absurd hc (by simp)

/-- A text that ends neither with white space nor with a bar has no clause. -/
theorem splitBlockClause_eq_self {cs : Text}
    (h : ∀ c ∈ cs.getLast?, isBlank c = false ∧ c ≠ '|') : splitBlockClause cs = (cs, none) := by
  have hnone : ∀ pre c suffix, cs = pre ++ c :: suffix → clauseAt? c (suffix ++ []) = none := by
    intro pre c suffix hcs
    rw [hcs, Text.getLast?_append_of_ne_nil (List.cons_ne_nil c suffix)] at h
    rw [List.append_nil, clauseAt?]
    split
    · refine Option.eq_none_iff_forall_ne_some.2 fun clause hclause => ?_
      have hbar := getLast?_of_blockClause? hclause fun d hd => (h d hd).1
      exact (h '|' hbar).2 rfl
    · rfl
  have hsplit := splitBlockClause_append [] hnone
  rw [List.append_nil] at hsplit
  rw [hsplit]
  exact Prod.ext (List.append_nil cs) rfl

/-- A clause after a text that does not end with white space is the one that the text divides at,
whatever bars come before it. -/
theorem splitBlockClause_clauseText {cs names : Text}
    (hlast : ∀ c ∈ cs.getLast?, isBlank c = false) (hbar : '|' ∉ names) :
    splitBlockClause (cs ++ ' ' :: clauseText [' '] names) =
      (cs, some (clauseText [' '] names)) := by
  have hnone : ∀ pre c suffix, cs = pre ++ c :: suffix →
      clauseAt? c (suffix ++ ' ' :: clauseText [' '] names) = none := by
    intro pre c suffix hcs
    rw [hcs, Text.getLast?_append_of_ne_nil (List.cons_ne_nil c suffix)] at hlast
    rw [clauseAt?]
    split
    · refine Option.eq_none_iff_forall_ne_some.2 fun clause hclause => ?_
      -- The last two bars are those of the clause, so the other clause would begin behind `cs`.
      obtain ⟨lead, gap, names', trail, hclause, heq, -⟩ := blockClause?_eq_some_iff.1 hclause
      obtain ⟨u, d, hu⟩ : ∃ u d, c :: suffix = u ++ [d] :=
        ⟨_, _, (List.dropLast_concat_getLast (List.cons_ne_nil c suffix)).symm⟩
      have hd : isBlank d = false := hlast d (by rw [hu, List.getLast?_concat]; rfl)
      have hno : ∀ w : Text, w.all isBlank = true → '|' ∉ w := by
        intro w hw hmem
        exact absurd (List.all_eq_true.1 hw _ hmem) (by decide)
      have hends : (u ++ d :: ' ' :: 'a' :: 's' :: ' ' :: '|' :: names) ++ '|' :: [] =
          (lead ++ 'a' :: 's' :: (gap ++ '|' :: names')) ++ '|' :: trail := by
        calc _ = (u ++ [d]) ++ ' ' :: clauseText [' '] names := by simp [clauseText]
          _ = c :: (suffix ++ ' ' :: clauseText [' '] names) := by rw [← hu]; rfl
          _ = _ := by rw [heq]; simp
      have hnames : (u ++ [d, ' ', 'a', 's', ' ']) ++ '|' :: names =
          (lead ++ 'a' :: 's' :: gap) ++ '|' :: names' := by
        have hfirst := (eq_of_last_bar (by simp) (hno trail hclause.trail_blank) hends).1
        simpa using hfirst
      have hword := congrArg Text.trimEnd (eq_of_last_bar hbar hclause.no_bar hnames).1
      have hleft : u ++ [d, ' ', 'a', 's', ' '] = (u ++ [d, ' ', 'a']) ++ 's' :: [' '] := by simp
      have hright : lead ++ 'a' :: 's' :: gap = (lead ++ ['a']) ++ 's' :: gap := by simp
      rw [hleft, hright, Text.trimEnd_append_cons _ rfl, Text.trimEnd_append_cons _ rfl,
        Text.trimEnd_of_blank rfl, Text.trimEnd_of_blank hclause.gap_blank] at hword
      have hlead : u ++ [d, ' '] = lead := by
        refine List.append_cancel_right (?_ : (u ++ [d, ' ']) ++ ['a', 's'] = lead ++ ['a', 's'])
        simpa using hword
      rw [List.all_eq_true.1 hclause.lead_blank d (by simp [← hlead])] at hd
      exact absurd hd (by simp)
    · rfl
  have hclause : splitBlockClause (' ' :: clauseText [' '] names) =
      ([], some (clauseText [' '] names)) := by
    apply splitBlockClause_cons_of_some
    have hat : blockClause? (' ' :: clauseText [' '] names) = some (clauseText [' '] names) :=
      blockClause?_eq_some_iff.2 ⟨[' '], [' '], names, [],
        ⟨rfl, List.cons_ne_nil _ _, rfl, hbar, rfl⟩, by simp [clauseText], rfl⟩
    exact hat
  rw [splitBlockClause_append _ hnone, hclause, List.append_nil]

/-- The last bar of a text, if only white space comes after it. -/
theorem exists_eq_of_filter_eq {cs f : Text} (hf : '|' ∉ f)
    (h : cs.filter (!isBlank ·) = f ++ ['|']) :
    ∃ n w, cs = n ++ '|' :: w ∧ '|' ∉ n ∧ w.all isBlank = true := by
  obtain ⟨w, hw, hblank⟩ := Text.exists_eq_trimEnd_append cs
  rw [← Text.filter_trimEnd] at h
  have hlast := Text.getLast?_trimEnd cs
  obtain hnil | ⟨n, c, hn⟩ := List.eq_nil_or_concat (Text.trimEnd cs)
  · simp [hnil] at h
  · rw [List.concat_eq_append] at hn
    have hc : isBlank c = false := hlast c (by rw [hn, List.getLast?_concat]; rfl)
    have hfilter : [c].filter (!isBlank ·) = [c] := by simp [hc]
    rw [hn, List.filter_append, hfilter] at h
    obtain ⟨hnf, hcbar⟩ := List.append_inj' h rfl
    have hc' : c = '|' := (List.cons.inj hcbar).1
    refine ⟨n, w, by rw [hw, hn, hc']; simp, fun hmem => hf ?_, hblank⟩
    rw [← hnf, List.mem_filter]
    exact ⟨hmem, rfl⟩

/-- Where a clause for block parameters is found in front of the end of a group, one bar stands in
the group and the other at the end of the text. -/
theorem bars_of_blockClause? {g t clause : Text} (hg : g.getLast? = some ')')
    (ht : ∀ c ∈ t.getLast?, isBlank c = false) (h : blockClause? (g ++ t) = some clause) :
    ∃ lead gap g' n, g = lead ++ 'a' :: 's' :: (gap ++ '|' :: g') ∧ lead.all isBlank = true ∧
      gap ≠ [] ∧ gap.all isBlank = true ∧ '|' ∉ g' ∧ t = n ++ ['|'] ∧ '|' ∉ n := by
  obtain ⟨lead, gap, names, trail, ⟨hlead, hne, hgap, hbar, htrail⟩, hcs, -⟩ :=
    blockClause?_eq_some_iff.1 h
  have hclose : isBlank ')' = false := rfl
  have hmem : ')' ∈ g := List.mem_of_getLast? hg
  have hno : ∀ w : Text, w.all isBlank = true → ')' ∉ w := by
    intro w hw hc
    have := List.all_eq_true.1 hw _ hc
    simp [hclose] at this
  have hfront : ')' ∉ lead ++ 'a' :: 's' :: gap := by
    simp [hno lead hlead, hno gap hgap]
  have hcs' : g ++ t = (lead ++ 'a' :: 's' :: gap) ++ '|' :: (names ++ '|' :: trail) := by
    rw [hcs]
    simp
  -- Behind the second bar there is nothing, since the text does not end with white space.
  have hend : ∀ b, t = b ++ '|' :: trail → trail = [] := by
    intro b hb
    obtain hnil | ⟨u, c, hu⟩ := List.eq_nil_or_concat trail
    · exact hnil
    · rw [List.concat_eq_append] at hu
      have hc := ht c (by simp [hb, hu, List.getLast?_cons])
      rw [List.all_eq_true.1 htrail c (by simp [hu])] at hc
      exact absurd hc (by simp)
  obtain ⟨a, ha, -⟩ | ⟨a, rfl, ha⟩ := List.append_eq_append_iff.1 hcs'
  · exact absurd (by simp [ha, hmem]) hfront
  · cases a with
    | nil => exact absurd (by simpa using hmem) hfront
    | cons d g' =>
        simp only [List.cons_append, List.cons.injEq] at ha
        obtain ⟨rfl, ha⟩ := ha
        have hg' : g'.getLast? = some ')' := by
          obtain rfl | ⟨u, c, rfl⟩ := List.eq_nil_or_concat g'
          · simp [List.getLast?_cons] at hg
          · simpa [List.getLast?_cons] using hg
        obtain ⟨b, rfl, hb⟩ | ⟨b, rfl, hb⟩ := List.append_eq_append_iff.1 ha
        · cases b with
          | nil =>
              have hnil := hend [] (by simpa using hb.symm)
              exact ⟨lead, gap, names ++ [], [], by simp, hlead, hne, hgap, by simpa using hbar,
                by simpa [hnil] using hb.symm, by simp⟩
          | cons e b =>
              simp only [List.cons_append, List.cons.injEq] at hb
              obtain ⟨rfl, rfl⟩ := hb
              obtain rfl | ⟨u, c, rfl⟩ := List.eq_nil_or_concat b
              · simp at hg'
              · have hc : c = ')' := by simpa [List.getLast?_cons] using hg'
                exact absurd (by simp [hc]) (hno _ htrail)
        · simp only [List.mem_append, not_or] at hbar
          have hnil := hend b hb
          exact ⟨lead, gap, g', b, by simp, hlead, hne, hgap, hbar.1, by rw [hb, hnil], hbar.2⟩

end MustachePath
