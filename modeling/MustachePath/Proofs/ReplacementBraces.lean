import MustachePath.Proofs.Braces
import MustachePath.Proofs.Clauses
import MustachePath.Proofs.Replacements
import MustachePath.Proofs.Respacing

/-!
# Braces of a replacement

A replacement is put together from the tokens of a plain tag. Its braces are lone again, since a
token that ends with a brace is followed by white space, and since no part is put directly after
another (`Rewritten.loneBraces`). It is no block comment either (`commentInner?_of_rewrite`).
-/

namespace MustachePath

/-! ## Parts of a text -/

theorem getLast?_ne_of_blank {w : Text} (hw : w.all isBlank = true) : w.getLast? ≠ some '{' := by
  intro hlast
  exact absurd (List.all_eq_true.1 hw _ (List.mem_of_getLast? hlast)) (by decide)

theorem LoneBraces.of_blank_append {w cs : Text} (h : LoneBraces (w ++ cs))
    (hw : w.all isBlank = true) : LoneBraces cs :=
  ((loneBraces_append (getLast?_ne_of_blank hw)).1 h).2

theorem isPrefix_trimEnd (cs : Text) : Text.trimEnd cs <+: cs := by
  obtain ⟨w, hw, -⟩ := Text.exists_eq_trimEnd_append cs
  exact ⟨w, hw.symm⟩

theorem LoneBraces.trim {cs : Text} (h : LoneBraces cs) : LoneBraces (Text.trim cs) := by
  obtain ⟨w, hw, hblank⟩ := Token.append_trimStart cs
  rw [hw] at h
  exact (h.of_blank_append hblank).of_isPrefix (isPrefix_trimEnd _)

theorem LoneBraces.stripStart {cs : Text} (h : LoneBraces cs) {c : Char} (hc : c ≠ '{') :
    LoneBraces (Markers.stripStart c cs).1 := by
  cases cs with
  | nil => exact h
  | cons d cs =>
      rw [Markers.stripStart]
      split
      · rename_i hd
        rw [hd] at h
        exact ((loneBraces_cons hc).1 h).2
      · exact h

/-- Taking off the markers leaves lone braces. -/
theorem LoneBraces.strip {body : Text} (h : LoneBraces body) :
    LoneBraces (Markers.strip body).1 := by
  have hopened := h.stripStart (c := '~') (by decide)
  have hclosed := hopened.of_isPrefix (Markers.isPrefix_stripEnd '~' _)
  obtain ⟨w, hw, hblank⟩ :=
    Token.append_trimStart (Markers.stripEnd '~' (Markers.stripStart '~' body).1).1
  rw [hw] at hclosed
  exact ((hclosed.of_blank_append hblank).stripStart (c := '&') (by decide)).trim

/-- The clause for block parameters is a part of the text. -/
theorem LoneBraces.clause {text clause : Text} (h : LoneBraces text)
    (hclause : (splitBlockClause text).2 = some clause) : LoneBraces clause := by
  obtain ⟨suffix, htext, hat⟩ := splitBlockClause_eq_some hclause
  obtain ⟨lead, gap, names, trail, -, rfl, rfl⟩ := blockClause?_eq_some_iff.1 hat
  have hshape : (splitBlockClause text).1 ++ lead ++ clauseText gap names ++ trail =
      (splitBlockClause text).1 ++
        (lead ++ 'a' :: 's' :: (gap ++ '|' :: (names ++ '|' :: trail))) := by
    simp [clauseText]
  exact h.of_isInfix ⟨_, trail, hshape.trans htext.symm⟩ (by simp [clauseText])

/-! ## Tokens -/

theorem IsName.loneBraces {t : Text} (h : IsName t) : LoneBraces t :=
  loneBraces_of_braceless h.braceless

namespace Token

theorem Lexeme.loneBraces {t : Token} {l : Text} (h : Lexeme t l) (hl : LoneBraces l) :
    LoneBraces t.text := by
  cases h with
  | pair hkey hw hw' hne hvalue =>
      have hequals : '=' ≠ '{' ∧ '=' ≠ '}' := by decide
      rw [List.append_assoc, List.cons_append, loneBraces_append_cons hequals.1 hequals.2] at hl
      rw [text, loneBraces_append_cons hequals.1 hequals.2]
      exact ⟨hkey.loneBraces, hl.2.of_blank_append hw'⟩
  | other hne hkey => exact hl

/-- What stands after a token begins anew, for a token that ends with a brace is followed by white
space. -/
theorem loneBraces_rest {l r : Text} {t : Token} (hread : read? (l ++ r) = some (t, r))
    (hlex : Lexeme t l) (h : LoneBraces (l ++ r)) : LoneBraces r := by
  by_cases hlast : l.getLast? = some '{'
  · have hbreaks := breaks_of_read? hread (hlex.getLast?_text.trans hlast) (by decide)
    cases r with
    | nil => exact loneBraces_nil
    | cons c r =>
        have hc : isBlank c = true := by simpa using hbreaks
        have hopen : c ≠ '{' := by
          rintro rfl
          exact absurd hc (by decide)
        have hclose : c ≠ '}' := by
          rintro rfl
          exact absurd hc (by decide)
        exact (loneBraces_cons hopen).2 ⟨hclose, ((loneBraces_append_cons hopen hclose).1 h).2⟩
  · exact ((loneBraces_append hlast).1 h).2

end Token

/-- The tokens of a text with lone braces have lone braces. -/
theorem LoneBraces.of_mem_tokenize {cs x : Text} (h : LoneBraces cs) (hx : x ∈ tokenize cs) :
    LoneBraces x := by
  generalize hxs : tokenize cs = xs at hx
  induction xs generalizing cs with
  | nil => simp at hx
  | cons y ys ih =>
      obtain ⟨w, s, r, t, rfl, hw, -, hread, rfl, hr⟩ := exists_read?_of_tokenize_eq_cons hxs
      obtain ⟨l, rfl, hlex⟩ := Token.read?_eq_some hread
      have hstart := h.of_blank_append hw
      obtain rfl | hx := List.mem_cons.1 hx
      · exact hlex.loneBraces hstart.left
      · exact ih (Token.loneBraces_rest hread hlex hstart) hr hx

theorem LoneBraces.joinSpaced {ts : List Text} (h : ∀ t ∈ ts, LoneBraces t) :
    LoneBraces (Text.joinSpaced ts) := by
  induction ts with
  | nil => exact loneBraces_nil
  | cons t ts ih =>
      cases ts with
      | nil => exact h t (by simp)
      | cons u us =>
          have hspace : ' ' ≠ '{' ∧ ' ' ≠ '}' := by decide
          rw [Text.joinSpaced_cons_cons, loneBraces_append_cons hspace.1 hspace.2]
          exact ⟨h t (by simp), ih fun v hv => h v (List.mem_cons_of_mem t hv)⟩

/-! ## The accessor's call -/

/-- Escaping puts no brace next to another one. -/
theorem LoneBraces.protectQuotes {p : Text} (h : LoneBraces p) : LoneBraces (protectQuotes p) := by
  have hchain : ∀ (escaped : Bool) (a : Char) (cs : Text), List.IsChain Beside (a :: cs) →
      List.IsChain Beside (a :: protectQuotesFrom escaped cs) := by
    intro escaped a cs hcs
    induction cs generalizing escaped a with
    | nil => exact hcs
    | cons c cs ih =>
        obtain ⟨hac, hcs⟩ := List.isChain_cons_cons.1 hcs
        by_cases hc : c = '"' ∧ escaped = false
        · rw [protectQuotesFrom_cons_of_quote cs hc]
          obtain ⟨rfl, -⟩ := hc
          have hslash : Beside a '\\' ∧ Beside '\\' '"' := by simp [Beside]
          exact List.isChain_cons_cons.2 ⟨hslash.1, List.isChain_cons_cons.2 ⟨hslash.2, ih _ _ hcs⟩⟩
        · rw [protectQuotesFrom_cons cs hc]
          exact List.isChain_cons_cons.2 ⟨hac, ih _ _ hcs⟩
  exact hchain false ' ' p h

/-- A text between two characters that are no braces. -/
theorem LoneBraces.enclosed {cs : Text} (h : LoneBraces cs) {c d : Char} (hc : c ≠ '{' ∧ c ≠ '}')
    (hd : d ≠ '{' ∧ d ≠ '}') : LoneBraces (c :: cs ++ [d]) := by
  rw [loneBraces_append_cons hd.1 hd.2, loneBraces_cons hc.1]
  exact ⟨⟨hc.2, h⟩, loneBraces_nil⟩

/-- The parts of a look-up have lone braces. -/
structure LookUp.HasLoneBraces (call : LookUp) : Prop where
  path : LoneBraces call.path
  pairs : ∀ t ∈ call.pairs, LoneBraces t
  positional : ∀ t ∈ call.positional, LoneBraces t

namespace LookUp.HasLoneBraces

variable {call : LookUp} (h : call.HasLoneBraces)

include h

theorem literal : LoneBraces call.literal :=
  h.path.protectQuotes.enclosed (by decide) (by decide)

theorem group {accessor : Text} (haccessor : IsName accessor) :
    LoneBraces (call.group accessor) := by
  refine LoneBraces.enclosed (LoneBraces.joinSpaced fun t ht => ?_) (by decide) (by decide)
  simp only [List.mem_cons] at ht
  obtain rfl | rfl | rfl | ht := ht
  · exact haccessor.loneBraces
  · exact isName_contextWord.loneBraces
  · exact h.literal
  · exact h.pairs t ht

theorem helperArguments : LoneBraces call.helperArguments :=
  LoneBraces.joinSpaced fun t ht => (List.mem_append.1 ht).elim (h.positional t) (h.pairs t)

end LookUp.HasLoneBraces

/-- A look-up holds nothing but the path and tokens of its arguments. -/
theorem hasLoneBraces_of_pathUse {o : Options} {p : Text} {arguments : Option Text} {call : LookUp}
    (huse : pathUse o p arguments = .lookUp call) (hp : LoneBraces p)
    (harguments : LoneBraces (arguments.getD [])) : call.HasLoneBraces := by
  obtain ⟨hpath, hpairs, hpositional⟩ := lookUp_eq_of_pathUse huse
  constructor
  · rwa [hpath]
  · intro t ht
    rw [hpairs] at ht
    exact harguments.of_mem_tokenize (List.mem_filter.1 ht).1
  · intro t ht
    rw [hpositional] at ht
    exact harguments.of_mem_tokenize (List.mem_filter.1 ht).1

/-! ## The replacement -/

/-- The helper and the arguments of an expression have lone braces. -/
theorem LoneBraces.onContext {widgets : List Text} {cs helper : Text} {arguments : Option Text}
    (h : LoneBraces cs)
    (hread : Expression.ofTokens widgets (tokenize cs) = .onContext helper arguments) :
    LoneBraces helper ∧ LoneBraces (arguments.getD []) := by
  obtain ⟨rest, htokens, harguments, -⟩ := Expression.ofTokens_eq_onContext hread
  have htoken : ∀ t ∈ helper :: rest, LoneBraces t := fun t ht => h.of_mem_tokenize (htokens ▸ ht)
  rw [harguments]
  exact ⟨htoken helper (by simp), .joinSpaced fun t ht => htoken t (by simp [ht])⟩

theorem LoneBraces.onPath {widgets : List Text} {cs helper p : Text} {arguments : Option Text}
    (h : LoneBraces cs)
    (hread : Expression.ofTokens widgets (tokenize cs) = .onPath helper p arguments) :
    LoneBraces helper ∧ LoneBraces p ∧ LoneBraces (arguments.getD []) := by
  obtain ⟨rest, htokens, harguments, -⟩ := Expression.ofTokens_eq_onPath hread
  have htoken : ∀ t ∈ helper :: p :: rest, LoneBraces t := fun t ht =>
    h.of_mem_tokenize (htokens ▸ ht)
  rw [harguments]
  exact ⟨htoken helper (by simp), htoken p (by simp),
    .joinSpaced fun t ht => htoken t (by simp [ht])⟩

/-- The text between the braces of a replacement that is made of these parts. -/
def Markers.content (m : Markers) (parts : List Text) : Text :=
  m.lead ++ Text.joinSpaced (parts.filter (· ≠ [])) ++ m.trail

theorem LoneBraces.content (m : Markers) {parts : List Text} (h : ∀ t ∈ parts, LoneBraces t) :
    LoneBraces (m.content parts) := by
  have hjoined : LoneBraces (Text.joinSpaced (parts.filter (· ≠ []))) :=
    .joinSpaced fun t ht => h t (List.mem_filter.1 ht).1
  have hlead : LoneBraces m.lead ∧ m.lead.getLast? ≠ some '{' := by
    obtain ⟨before, after, raw⟩ := m
    cases before <;> cases raw <;> simp [Markers.lead, loneBraces_cons]
  have hfront := (loneBraces_append hlead.2).2 ⟨hlead.1, hjoined⟩
  obtain ⟨before, after, raw⟩ := m
  cases after with
  | false => simpa [Markers.content, Markers.trail] using hfront
  | true =>
      have htilde : '~' ≠ '{' ∧ '~' ≠ '}' := by decide
      exact (loneBraces_append_cons htilde.1 htilde.2).2 ⟨hfront, loneBraces_nil⟩

/-- A replacement is put together from parts with lone braces. The first part begins like the tag's
text, or it is a name. -/
theorem Rewritten.exists_parts {o : Options} (ho : o.isValid = true) {m : Markers} {text new : Text}
    (h : Rewritten o m text new) (htext : LoneBraces text) (hstart : Text.Stops isBlank text) :
    ∃ head parts, new = m.wrap (head :: parts) ∧ (∀ t ∈ head :: parts, LoneBraces t) ∧
      head ≠ [] ∧ (IsName head ∨ head.head? = text.head?) := by
  have haccessor := isName_accessor ho
  cases h with
  | @path text p call hplain hread huse =>
      rw [expressionOf_of_opensBlock_eq_false hplain] at hread
      have hp : LoneBraces p :=
        htext.of_mem_tokenize (by rw [Expression.ofTokens_eq_path hread]; simp)
      have hcall := hasLoneBraces_of_pathUse huse hp loneBraces_nil
      refine ⟨_, _, rfl, ?_, haccessor.1, .inl haccessor⟩
      simp only [List.forall_mem_cons]
      exact ⟨haccessor.loneBraces, isName_contextWord.loneBraces, hcall.literal, by simp⟩
  | @onContext text helper arguments hplain hread =>
      rw [expressionOf_of_opensBlock_eq_false hplain] at hread
      obtain ⟨rest, htokens, -⟩ := Expression.ofTokens_eq_onContext hread
      obtain ⟨hhelper, harguments⟩ := htext.onContext hread
      refine ⟨_, _, rfl, ?_, ?_, .inr (head?_of_tokenize_eq_cons htokens hstart)⟩
      · simp only [List.forall_mem_cons]
        exact ⟨hhelper, isName_contextWord.loneBraces, harguments, by simp⟩
      · exact ne_nil_of_mem_tokenize (by rw [htokens]; simp)
  | @onPath text helper p arguments call hplain hread huse =>
      rw [expressionOf_of_opensBlock_eq_false hplain] at hread
      obtain ⟨rest, htokens, -⟩ := Expression.ofTokens_eq_onPath hread
      obtain ⟨hhelper, hp, harguments⟩ := htext.onPath hread
      have hcall := hasLoneBraces_of_pathUse huse hp harguments
      refine ⟨_, _, rfl, ?_, ?_, .inr (head?_of_tokenize_eq_cons htokens hstart)⟩
      · simp only [List.forall_mem_cons]
        exact ⟨hhelper, hcall.group haccessor, hcall.helperArguments, by simp⟩
      · exact ne_nil_of_mem_tokenize (by rw [htokens]; simp)
  | @block sign text helper p arguments call hsign hread huse =>
      have hbrace : sign ≠ '{' ∧ sign ≠ '}' := by obtain rfl | rfl := hsign <;> decide
      have hbody := ((loneBraces_cons hbrace.1).1 htext).2
      rw [expressionOf_cons hsign] at hread
      obtain ⟨hhelper, hp, harguments⟩ :=
        (hbody.of_isPrefix (isPrefix_splitBlockClause text)).onPath hread
      have hcall := hasLoneBraces_of_pathUse huse hp harguments
      refine ⟨_, _, rfl, ?_, List.cons_ne_nil _ _, .inr rfl⟩
      simp only [List.forall_mem_cons]
      refine ⟨(loneBraces_cons hbrace.1).2 ⟨hbrace.2, hhelper⟩, hcall.group haccessor,
        hcall.helperArguments, ?_, by simp⟩
      cases hclause : (splitBlockClause text).2 with
      | none => exact loneBraces_nil
      | some clause => exact hbody.clause hclause

/-! ## Replacements and comments -/

theorem head?_of_isPrefix {s t : Text} {c : Char} (h : s <+: t) (hs : s.head? = some c) :
    t.head? = some c := by
  obtain ⟨u, rfl⟩ := h
  rw [List.head?_append, hs]
  rfl

theorem stripStart_eq_false {x : Char} {cs : Text} (h : (Markers.stripStart x cs).2 = false) :
    cs.head? ≠ some x ∧ Markers.stripStart x cs = (cs, false) := by
  have hhead : cs.head? ≠ some x := by
    intro hhead
    obtain ⟨u, rfl⟩ := List.head?_eq_some_iff.1 hhead
    rw [Markers.stripStart_cons] at h
    simp at h
  exact ⟨hhead, Markers.stripStart_of_head? hhead⟩

/-- Where no marker stands at the front of a tag, its text begins like the tag. -/
theorem head?_strip_ne {body : Text} (hbody : Text.Stops isBlank body)
    (hlead : (Markers.strip body).2.lead = []) : (Markers.strip body).1.head? ≠ some '~' := by
  have hmarkers : (Markers.strip body).2.trimsBefore = false ∧
      (Markers.strip body).2.raw = false := by
    generalize (Markers.strip body).2 = m at hlead
    obtain ⟨before, after, raw⟩ := m
    cases before <;> cases raw <;> simp [Markers.lead] at hlead ⊢
  obtain ⟨htilde, hopened⟩ := stripStart_eq_false hmarkers.1
  have hprefix := Markers.isPrefix_stripEnd '~' body
  have hstops : Text.Stops isBlank (Markers.stripEnd '~' body).1 :=
    fun c hc => hbody c (head?_of_isPrefix hprefix hc)
  have htrim := Text.trimStart_eq_self hstops
  have hraw := hmarkers.2
  simp only [Markers.strip, hopened, htrim] at hraw ⊢
  rw [(stripStart_eq_false hraw).2]
  intro hhead
  rw [Text.trim, htrim] at hhead
  exact htilde (head?_of_isPrefix ((isPrefix_trimEnd _).trans hprefix) hhead)

theorem head?_ne_of_isControl {text : Text} (h : isControl text = false) :
    text.head? ≠ some '!' := by
  intro hhead
  obtain ⟨u, rfl⟩ := List.head?_eq_some_iff.1 hhead
  simp [isControl] at h

/-- A replacement of a plain tag is found again between its braces, unless it begins or ends with a
brace of its own. -/
theorem sealed_of_rewrite {o : Options} (ho : o.isValid = true) {inner new : Text}
    (hinner : LoneBraces inner) (h : Decision.ofBody o (Text.trim inner) = .rewrite (braced new))
    (hfirst : new.head? ≠ some '{') (hlast : new.getLast? ≠ some '{') : Sealed new := by
  obtain ⟨hcontrol, hrewritten⟩ := rewritten_of_ofBody_eq_rewrite h
  have hbody := Text.stops_trim inner
  obtain ⟨head, parts, hnew, hparts, hne, hhead⟩ :=
    hrewritten.exists_parts ho hinner.trim.strip (Text.stops_trim _)
  have hcontent : new = (Markers.strip (Text.trim inner)).2.content (head :: parts) := by
    rw [Markers.wrap_eq] at hnew
    exact braced_inj.1 hnew
  obtain ⟨c, cs, rfl⟩ := List.exists_cons_of_ne_nil hne
  have hbang : c ≠ '!' := by
    rintro rfl
    obtain hname | hstart := hhead
    · exact absurd (hname.2 '!' (by simp)) (by decide)
    · exact head?_ne_of_isControl hcontrol hstart.symm
  have htilde : (Markers.strip (Text.trim inner)).2.lead = [] → c ≠ '~' := by
    rintro hlead rfl
    obtain hname | hstart := hhead
    · exact absurd (hname.2 '~' (by simp)) (by decide)
    · exact head?_strip_ne hbody hlead hstart.symm
  obtain ⟨u, hu⟩ : ∃ u, new = (Markers.strip (Text.trim inner)).2.lead ++ c :: u := by
    refine ⟨cs ++ ((parts.filter (· ≠ [])).flatMap fun t => ' ' :: t) ++
      (Markers.strip (Text.trim inner)).2.trail, ?_⟩
    rw [hcontent, Markers.content, List.filter_cons_of_pos (by simp), Text.joinSpaced_cons]
    simp
  refine ⟨?_, ?_, hfirst, hlast, fun s => ?_⟩
  · rw [hu]
    simp
  · rw [hcontent]
    exact .content _ hparts
  · rw [hu, List.append_assoc]
    exact Markers.commentInner?_lead_cons _ hbang htilde _

end MustachePath
