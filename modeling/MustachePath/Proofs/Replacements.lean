import MustachePath.Proofs.Decisions
import MustachePath.Proofs.Escapes
import MustachePath.Proofs.Rescanning

/-!
# Replacements read as tags

A replacement is a tag too. Its markers are stripped again, and the first two parts that follow them
are what the replacement was made of (`strip_replacement`); of its end, white space and one tilde
may be lost. As the second part is the context word or a group, the replacement stays as written.
-/

namespace MustachePath

namespace Text

/-- Texts with a space before each of them. Empty texts are left out. -/
def spaced (ts : List Text) : Text := (ts.filter (· ≠ [])).flatMap fun t => ' ' :: t

end Text

namespace Markers

/-- What is left of the end of a replacement when it is read as a tag. -/
def reread (t : Text) : Text := Text.trimEnd (stripEnd '~' (Text.trimEnd t)).1

/-- A marker after the end is stripped, and nothing but white space of the end itself, unless it
ends with a tilde. -/
theorem reread_trail {m : Markers} {tail : Text}
    (h : m.trimsAfter = true ∨ (Text.trimEnd tail).getLast? ≠ some '~') :
    reread (tail ++ m.trail) = Text.trimEnd tail := by
  obtain ⟨before, after, raw⟩ := m
  cases after with
  | true =>
      have htilde : isBlank '~' = false := rfl
      simp [reread, trail, Text.trimEnd_append_cons _ htilde, stripEnd_append_singleton]
  | false =>
      have hlast : (Text.trimEnd tail).getLast? ≠ some '~' := by simpa using h
      rw [reread, trail]
      simp only [Bool.false_eq_true, if_false, List.append_nil, stripEnd_of_getLast? hlast]
      exact Text.trimEnd_eq_self (Text.getLast?_trimEnd tail)

/-- The end of a replacement loses only white space and tildes. -/
theorem exists_eq_reread_append (m : Markers) (tail : Text) :
    ∃ e, tail = reread (tail ++ m.trail) ++ e ∧ ∀ c ∈ e, isBlank c = true ∨ c = '~' := by
  obtain ⟨w, hw, hblank⟩ := Text.exists_eq_trimEnd_append tail
  have hw' : ∀ c ∈ w, isBlank c = true ∨ c = '~' := fun c hc =>
    Or.inl (List.all_eq_true.1 hblank c hc)
  by_cases h : m.trimsAfter = true ∨ (Text.trimEnd tail).getLast? ≠ some '~'
  · rw [reread_trail h]
    exact ⟨w, hw, hw'⟩
  · simp only [not_or, Bool.not_eq_true, Decidable.not_not] at h
    obtain hnil | ⟨u, d, hu⟩ := List.eq_nil_or_concat (Text.trimEnd tail)
    · simp [hnil] at h
    · rw [List.concat_eq_append] at hu
      have hd : d = '~' := by simpa [hu] using h.2
      have hreread : reread (tail ++ m.trail) = Text.trimEnd u := by
        simp [reread, trail, h.1, hu, hd, stripEnd_append_singleton]
      obtain ⟨v, hv, hvblank⟩ := Text.exists_eq_trimEnd_append u
      refine ⟨v ++ '~' :: w, ?_, ?_⟩
      · calc tail = u ++ ['~'] ++ w := by rw [hw, hu, hd]
          _ = Text.trimEnd u ++ v ++ ['~'] ++ w := by rw [← hv]
          _ = reread (tail ++ m.trail) ++ (v ++ '~' :: w) := by rw [hreread]; simp
      · intro c hc
        rw [List.mem_append, List.mem_cons] at hc
        obtain hc | hc | hc := hc
        · exact Or.inl (List.all_eq_true.1 hvblank c hc)
        · exact Or.inr hc
        · exact hw' c hc

theorem getLast?_reread (t : Text) : ∀ c ∈ (reread t).getLast?, isBlank c = false :=
  Text.getLast?_trimEnd _

/-- Whether a text can follow the markers of a tag and keep the tag from being a comment. -/
def Leads (cs : Text) : Prop :=
  ∃ c r, cs = c :: r ∧ isBlank c = false ∧ c ≠ '~' ∧ c ≠ '&' ∧ c ≠ '!'

theorem wrap_eq_braced (m : Markers) {head second : Text} (hhead : head ≠ [])
    (hsecond : second ≠ []) (parts : List Text) :
    m.wrap (head :: second :: parts) =
      braced (m.lead ++ (head ++ ' ' :: (second ++ (Text.spaced parts ++ m.trail)))) := by
  have hfilter : (head :: second :: parts).filter (· ≠ []) =
      head :: second :: parts.filter (· ≠ []) := by
    simp [hhead, hsecond]
  rw [wrap_eq, hfilter, Text.joinSpaced_cons]
  simp [Text.spaced]

theorem nonblank_of_mem_lead (m : Markers) : ∀ c ∈ m.lead, isBlank c = false := by
  obtain ⟨before, after, raw⟩ := m
  cases before <;> cases raw <;> simp [lead, isBlank]

/-- A tag's text without its markers and the white space around it. -/
theorem strip_trim_lead_append (m : Markers) {w s : Text} {d : Char} (hw : w.all isBlank = true)
    (hs : Unmarked (s ++ [d])) (hd : isBlank d = false) (hd' : d ≠ '~') (t : Text) :
    (strip (Text.trim (m.lead ++ (w ++ (s ++ d :: t))))).1 = s ++ d :: reread t := by
  cases hlead : m.lead with
  | nil =>
      have htrim := trim_lead_append m t hs hd
      have hstrip := strip_lead_append m (t := Text.trimEnd t) hs hd hd'
      rw [hlead, List.nil_append] at htrim hstrip
      rw [List.nil_append, Text.trim, Text.trimStart_append hw, ← Text.trim, htrim, List.nil_append,
        hstrip]
      rfl
  | cons c cs =>
      have hc : isBlank c = false := m.nonblank_of_mem_lead c (by simp [hlead])
      have htrim : Text.trim (c :: cs ++ (w ++ (s ++ d :: t))) =
          c :: cs ++ (w ++ (s ++ d :: Text.trimEnd t)) := by
        have hstart : Text.Stops isBlank (c :: cs ++ (w ++ (s ++ d :: t))) := Text.stops_cons.2 hc
        rw [Text.trim, Text.trimStart_eq_self hstart, ← List.append_assoc w, ← List.append_assoc,
          Text.trimEnd_append_cons _ hd, List.append_assoc, List.append_assoc]
      rw [htrim, ← hlead, strip_lead_blank_append m hw hs hd hd']
      rfl

/-- The text of a replacement without its markers. -/
theorem strip_replacement (m : Markers) {head s : Text} {d : Char} (hhead : Leads head)
    (hd : isBlank d = false) (hd' : d ≠ '~') (t : Text) :
    (strip (Text.trim (m.lead ++ (head ++ ' ' :: (s ++ d :: t))))).1 =
      head ++ ' ' :: (s ++ d :: reread t) := by
  obtain ⟨c, r, rfl, hblank, htilde, hand, -⟩ := hhead
  have hmark : Unmarked ((c :: r ++ ' ' :: s) ++ [d]) := by
    simp [hblank, htilde, hand]
  have hshape : ∀ u, c :: r ++ ' ' :: (s ++ d :: u) = (c :: r ++ ' ' :: s) ++ d :: u := by
    intro u
    simp
  rw [hshape, hshape]
  exact strip_trim_lead_append m (w := []) rfl hmark hd hd' t

theorem commentInner?_lead_cons (m : Markers) {c : Char} (hbang : c ≠ '!')
    (htilde : m.lead = [] → c ≠ '~') (rest : Text) :
    commentInner? (m.lead ++ c :: rest) = none := by
  obtain ⟨before, after, raw⟩ := m
  cases before with
  | false =>
      cases raw with
      | false =>
          exact commentInner?_eq_none_of_head? (by simp [lead, hbang]) (by simp [lead, htilde rfl])
      | true => exact commentInner?_eq_none_of_head? (by simp [lead]) (by simp [lead])
  | true =>
      cases raw with
      | false => simp [lead, commentInner?, hbang]
      | true => simp [lead, commentInner?]

theorem commentInner?_lead_append (m : Markers) {cs : Text} (hcs : Leads cs) (rest : Text) :
    commentInner? (m.lead ++ (cs ++ rest)) = none := by
  obtain ⟨c, r, rfl, -, htilde, -, hbang⟩ := hcs
  exact commentInner?_lead_cons m hbang (fun _ => htilde) (r ++ rest)

end Markers

namespace LookUp

/-- What stands between the parentheses of the accessor's call. -/
def callText (accessor : Text) (call : LookUp) : Text :=
  Text.joinSpaced (accessor :: contextWord :: call.literal :: call.pairs)

theorem group_eq (accessor : Text) (call : LookUp) :
    call.group accessor = ('(' :: call.callText accessor) ++ [')'] := rfl

end LookUp

/-- A tag with a replacement that stays as written is settled. -/
theorem settled_of_wrap {o : Options} {inner : Text} {m : Markers} {head s : Text} {d : Char}
    {parts : List Text}
    (hout : tagOutput o inner = m.wrap (head :: (s ++ [d]) :: parts)) (hhead : Markers.Leads head)
    (hd : isBlank d = false) (hd' : d ≠ '~')
    (hbrace : ∀ p ∈ head :: (s ++ [d]) :: parts, ∀ c ∈ p, c ≠ '{' ∧ c ≠ '}')
    (hkeep : ∀ body, (Markers.strip body).1 =
      head ++ ' ' :: (s ++ d :: Markers.reread (Text.spaced parts ++ m.trail)) →
      (Decision.ofBody o body).replacement = none) :
    Settled o inner := by
  have hne : head ≠ [] := by
    obtain ⟨c, r, rfl, -⟩ := hhead
    simp
  rw [Markers.wrap_eq_braced m hne (by simp)] at hout
  have hmem : ∀ c ∈ m.lead ++ (head ++ ' ' :: ((s ++ [d]) ++ (Text.spaced parts ++ m.trail))),
      c ≠ '{' ∧ c ≠ '}' := by
    have hlead : ∀ c ∈ m.lead, c ≠ '{' ∧ c ≠ '}' := by
      obtain ⟨before, after, raw⟩ := m
      cases before <;> cases raw <;> simp [Markers.lead]
    have htrail : ∀ c ∈ m.trail, c ≠ '{' ∧ c ≠ '}' := by
      obtain ⟨before, after, raw⟩ := m
      cases after <;> simp [Markers.trail]
    intro c hc
    rw [List.mem_append, List.mem_append, List.mem_cons, List.mem_append] at hc
    obtain hc | hc | rfl | hc | hc := hc
    · exact hlead c hc
    · exact hbrace head (by simp) c hc
    · decide
    · exact hbrace (s ++ [d]) (by simp) c hc
    · obtain hc | hc := List.mem_append.1 hc
      · simp only [Text.spaced, List.mem_flatMap, List.mem_filter, List.mem_cons] at hc
        obtain ⟨t, ⟨ht, -⟩, rfl | hc⟩ := hc
        · decide
        · exact hbrace t (by simp [ht]) c hc
      · exact htrail c hc
  refine Or.inr ⟨_, hout,
    ⟨?_, loneBraces_of_braceless hmem, fun h => (hmem _ (List.mem_of_head? h)).1 rfl,
      fun h => (hmem _ (List.mem_of_getLast? h)).1 rfl, ?_⟩, ?_⟩
  · simp
  · intro rest
    have hcomment := Markers.commentInner?_lead_append m hhead
      (' ' :: ((s ++ [d]) ++ (Text.spaced parts ++ m.trail)) ++ '}' :: '}' :: rest)
    simpa using hcomment
  · apply tagOutput_eq_braced
    apply hkeep
    have hstrip := Markers.strip_replacement m hhead hd hd' (s := s) (Text.spaced parts ++ m.trail)
    simpa using hstrip

theorem isNameChar_of_isAccessorStart {c : Char} (h : isAccessorStart c = true) :
    isNameChar c = true := by
  simp only [isAccessorStart, Bool.or_eq_true, beq_iff_eq] at h
  obtain (h | rfl) | rfl := h
  · have hlt : c.toNat < 128 := by
      have hrange := isAlpha_iff_toNat.1 h
      omega
    simp [isNameChar, isWordChar, hlt, Char.isAlphanum, h]
  · decide
  · decide

/-- The accessor of usable options is a name. -/
theorem isName_accessor {o : Options} (ho : o.isValid = true) : IsName o.accessor := by
  unfold Options.isValid at ho
  cases hacc : o.accessor with
  | nil => simp [hacc, isAccessorName] at ho
  | cons c cs =>
      simp only [hacc, isAccessorName, Bool.and_eq_true, List.all_eq_true, Bool.or_eq_true,
        beq_iff_eq] at ho
      refine ⟨by simp, fun d hd => ?_⟩
      obtain rfl | hd := List.mem_cons.1 hd
      · exact isNameChar_of_isAccessorStart ho.1
      · obtain (h | h) | rfl := ho.2 d hd
        · exact isNameChar_of_isAccessorStart h
        · exact isNameChar_of_isDigit h
        · decide

section Kept

variable {o : Options} {body head t : Text}

theorem opensBlock_of_isName (hhead : IsName head) : opensBlock (head ++ t) = false := by
  apply opensBlock_eq_false
  · intro u h
    exact absurd (hhead.of_append_eq_cons h) (by decide)
  · intro u h
    exact absurd (hhead.of_append_eq_cons h) (by decide)

/-- A name at the front makes a control tag only if it is the word `else`. -/
theorem isControl_name_append (hhead : IsName head) (ht : Text.Stops isNameChar t) :
    isControl (head ++ t) = true ↔ head = ['e', 'l', 's', 'e'] ∧ t.Breaks := by
  constructor
  · intro hcontrol
    unfold isControl at hcontrol
    split at hcontrol
    · rename_i heq
      exact absurd (hhead.of_append_eq_cons heq) (by decide)
    · rename_i heq
      exact absurd (hhead.of_append_eq_cons heq) (by decide)
    · rename_i heq
      exact absurd (hhead.of_append_eq_cons heq) (by decide)
    · rename_i cs heq
      have heq' : head ++ t = ['e', 'l', 's', 'e'] ++ cs := heq
      obtain ⟨a, ha, hcs⟩ | ⟨a, ha, hcs⟩ := List.append_eq_append_iff.1 heq'
      · -- The word goes on after the name, so what follows the name would belong to the name.
        cases a with
        | nil =>
            refine ⟨by rw [ha, List.append_nil], fun c hc => ?_⟩
            rw [hcs, List.nil_append] at hc
            rw [Option.mem_def.1 hc] at hcontrol
            simpa using hcontrol
        | cons d a =>
            rw [hcs, List.cons_append] at ht
            have hmem : d ∈ ['e', 'l', 's', 'e'] := by rw [ha]; simp
            have hword : ['e', 'l', 's', 'e'].all isNameChar = true := by decide
            rw [Text.stops_cons, List.all_eq_true.1 hword d hmem] at ht
            exact absurd ht (by simp)
      · cases a with
        | nil =>
            refine ⟨by rw [ha, List.append_nil], fun c hc => ?_⟩
            rw [hcs, List.nil_append, Option.mem_def.1 hc] at hcontrol
            simpa using hcontrol
        | cons d a =>
            have hd : isBlank d = true := by simpa [hcs] using hcontrol
            rw [(IsName.excludes (hhead.2 d (by simp [ha]))).1] at hd
            exact absurd hd (by simp)
    · simp at hcontrol
  · rintro ⟨rfl, hbreaks⟩
    cases t with
    | nil => rfl
    | cons c t => simpa [isControl] using hbreaks

theorem Markers.leads_of_isName (hhead : IsName head) : Markers.Leads head := by
  obtain ⟨hne, hall⟩ := hhead
  cases head with
  | nil => exact absurd rfl hne
  | cons c head =>
      have hc := hall c (by simp)
      refine ⟨c, head, rfl, isBlank_eq_false_of_isNameChar hc, ?_, ?_, ?_⟩
      · rintro rfl
        exact absurd hc (by decide)
      · rintro rfl
        exact absurd hc (by decide)
      · rintro rfl
        exact absurd hc (by decide)

theorem isName_contextWord : IsName contextWord := by
  decide

/-- A name before the context word stays. -/
theorem replacement_of_context (hhead : IsName head) (ht : t.Breaks)
    (he : Text.Stops (· == '=') (Text.trimStart t))
    (hbody : (Markers.strip body).1 = head ++ ' ' :: (contextWord ++ t)) :
    (Decision.ofBody o body).replacement = none := by
  have htokens : tokenize (head ++ ' ' :: (contextWord ++ t)) =
      head :: contextWord :: tokenize t := by
    rw [tokenize_name_append hhead (Text.stops_cons.2 rfl) (Text.stops_cons.2 rfl),
      tokenize_space_cons, tokenize_name_append isName_contextWord ht he]
  have hpair : isPairShaped contextWord = false := by decide
  obtain ⟨arguments, hread, -⟩ :=
    Expression.ofTokens_cons_cons o.widgetHelpers (tokenize t) head hpair
  apply replacement_ofBody_eq_none (p := contextWord)
  · refine ⟨head, arguments, ?_⟩
    rw [hbody, expressionOf_of_opensBlock_eq_false (opensBlock_of_isName hhead), htokens, hread]
  · intro arguments call
    simp [pathUse_contextWord]

/-- A name before a group stays, also where a sign before the name opens a block and a clause for
block parameters comes somewhere after the group. -/
theorem replacement_of_group {a : Text} (hhead : IsName head) (hopen : '(' ∉ a) (hclose : ')' ∉ a)
    (hbody : ∃ rest, expressionOf o (Markers.strip body).1 =
      .ofTokens o.widgetHelpers (tokenize (head ++ ' ' :: ('(' :: a ++ ')' :: rest)))) :
    (Decision.ofBody o body).replacement = none := by
  obtain ⟨rest, hbody⟩ := hbody
  have htokens : tokenize (head ++ ' ' :: ('(' :: a ++ ')' :: rest)) =
      head :: ('(' :: a ++ [')']) :: tokenize rest := by
    rw [tokenize_name_append hhead (Text.stops_cons.2 rfl) (Text.stops_cons.2 rfl),
      tokenize_space_cons, tokenize_group_append hclose hopen]
  have hpair : isPairShaped ('(' :: a ++ [')']) = false := by
    have hstop : Text.Stops isNameChar ('(' :: a ++ [')']) := Text.stops_cons.2 (by decide)
    rw [isPairShaped, Token.pairKey?_eq_none_of_stops hstop]
    rfl
  obtain ⟨arguments, hread, -⟩ :=
    Expression.ofTokens_cons_cons o.widgetHelpers (tokenize rest) head hpair
  have hgroup : isGroup ('(' :: a ++ [')']) = true := by
    simp [isGroup, List.getLast?_cons]
  apply replacement_ofBody_eq_none (p := '(' :: a ++ [')'])
  · exact ⟨head, arguments, by rw [hbody, htokens, hread]⟩
  · intro arguments call
    rw [pathUse_of_isGroup o arguments hgroup]
    exact PathUse.noConfusion

end Kept

end MustachePath
