import MustachePath.Proofs.Decisions

/-!
# Scanning a preprocessed template

A tag is settled if it stays as written, or its replacement is a tag that stays as written. Where
all tags are settled, preprocessing the preprocessed template changes nothing more, whatever stands
around the tags. A block comment that was never closed may find a closing in the output, namely at
the end of a replacement; it then hides what was settled before (`resumes_of_dashed`).
-/

namespace MustachePath

/-- A text between whose braces the scan finds nothing but the text itself. -/
structure Sealed (inner : Text) : Prop where
  ne_nil : inner ≠ []
  lone : LoneBraces inner
  first : inner.head? ≠ some '{'
  last : inner.getLast? ≠ some '{'
  no_comment : ∀ s, commentInner? (inner ++ '}' :: '}' :: s) = none

/-- Whether preprocessing a tag once is enough. -/
def Settled (o : Options) (inner : Text) : Prop :=
  tagOutput o inner = braced inner ∨
    ∃ new, tagOutput o inner = braced new ∧ Sealed new ∧ tagOutput o new = braced new

/-- Whether the output of a tag holds no closing pair but its own. -/
def Tidy (o : Options) (inner : Text) : Prop :=
  tagOutput o inner = braced inner ∨
    ∃ new, tagOutput o inner = braced new ∧ new ≠ [] ∧ LoneBraces new

/-- Whether the scan of a text comes to a later part of it outside of all tags. -/
def Resumes (w' w : Text) : Prop := ∃ ps, pieces w = ps ++ pieces w'

theorem Resumes.refl (w : Text) : Resumes w w := ⟨[], rfl⟩

theorem Resumes.trans {w'' w' w : Text} (h : Resumes w'' w') (h' : Resumes w' w) :
    Resumes w'' w := by
  obtain ⟨ps, hps⟩ := h
  obtain ⟨qs, hqs⟩ := h'
  exact ⟨qs ++ ps, by rw [hqs, hps, List.append_assoc]⟩

theorem Resumes.cons {c : Char} {cs w' : Text} (h : tagInner? (c :: cs) = none)
    (hw : Resumes w' cs) : Resumes w' (c :: cs) := by
  obtain ⟨ps, hps⟩ := hw
  exact ⟨.plain c :: ps, by rw [pieces_cons_of_tagInner?_eq_none h, hps, List.cons_append]⟩

theorem Resumes.tag {cs inner rest w' : Text} (h : tagInner? cs = some (inner, rest))
    (hw : Resumes w' rest) : Resumes w' cs := by
  obtain ⟨ps, hps⟩ := hw
  refine ⟨(inner.takeWhile (· == '{')).map .plain ++
    .tag (inner.dropWhile (· == '{')) :: ps, ?_⟩
  rw [pieces_of_tagInner?_eq_some h, hps]
  simp

theorem Resumes.after_plain {c : Char} {cs : Text} (h : tagInner? (c :: cs) = none) :
    Resumes cs (c :: cs) :=
  .cons h (.refl cs)

theorem Resumes.after_tag {cs inner rest : Text} (h : tagInner? cs = some (inner, rest)) :
    Resumes rest cs :=
  .tag h (.refl rest)

theorem Resumes.mem {w w' : Text} (h : Resumes w' w) {p : Piece} (hp : p ∈ pieces w') :
    p ∈ pieces w := by
  obtain ⟨ps, hps⟩ := h
  rw [hps]
  exact List.mem_append_right ps hp

theorem Resumes.length_le {w w' : Text} (h : Resumes w' w) : w'.length ≤ w.length := by
  obtain ⟨ps, hps⟩ := h
  have htext : w = ps.flatMap Piece.text ++ w' := by
    rw [← flatMap_text_pieces w, hps, List.flatMap_append, flatMap_text_pieces]
  rw [htext, List.length_append]
  exact Nat.le_add_left _ _

section

variable {o : Options}

/-- Whether all tags of a text have a property of their inner texts. -/
def EachTag (P : Text → Prop) (w : Text) : Prop := ∀ i, Piece.tag i ∈ pieces w → P i

theorem EachTag.of_resumes {P : Text → Prop} {w w' : Text} (hs : EachTag P w)
    (h : Resumes w' w) : EachTag P w' :=
  fun i hi => hs i (h.mem hi)

theorem EachTag.imp {P Q : Text → Prop} {w : Text} (h : ∀ i, P i → Q i) (hs : EachTag P w) :
    EachTag Q w :=
  fun i hi => h i (hs i hi)

theorem Settled.tidy {inner : Text} (h : Settled o inner) : Tidy o inner := by
  obtain h | ⟨new, h, hsealed, -⟩ := h
  · exact .inl h
  · exact .inr ⟨new, h, hsealed.ne_nil, hsealed.lone⟩

/-- The tag found at the front of a text is among the text's pieces. -/
theorem tag_mem_pieces {cs inner rest : Text} (h : tagInner? cs = some (inner, rest)) :
    Piece.tag (inner.dropWhile (· == '{')) ∈ pieces cs := by
  rw [pieces_of_tagInner?_eq_some h]
  simp

/-- Where a tag begins, so does its output. -/
theorem preprocess_eq_brace_brace {cs inner rest : Text}
    (h : tagInner? cs = some (inner, rest)) :
    ∃ a, preprocess o cs = '{' :: '{' :: a := by
  obtain ⟨new, hnew⟩ := exists_tagOutput_eq_braced o (inner.dropWhile (· == '{'))
  rw [preprocess_of_tagInner?_eq_some h, hnew]
  cases htake : inner.takeWhile (· == '{') with
  | nil => exact ⟨_, rfl⟩
  | cons c b =>
      have hmem : ∀ d ∈ c :: b, d = '{' := by
        intro d hd
        rw [← htake] at hd
        simpa using List.all_eq_true.1 List.all_takeWhile d hd
      cases b with
      | nil => exact ⟨_, by rw [hmem c (by simp)]; rfl⟩
      | cons d b => exact ⟨_, by rw [hmem c (by simp), hmem d (by simp)]; rfl⟩

/-- Text of the output before the next brace is text of the template. -/
theorem preprocess_eq_append {w k v : Text} (hk : '{' ∉ k) (h : preprocess o w = k ++ v) :
    ∃ w', w = k ++ w' ∧ v = preprocess o w' ∧ Resumes w' w := by
  induction k generalizing w with
  | nil => exact ⟨w, rfl, h.symm, Resumes.refl w⟩
  | cons c k ih =>
      simp only [List.mem_cons, not_or] at hk
      cases w with
      | nil => simp at h
      | cons d w =>
          cases htag : tagInner? (d :: w) with
          | some p =>
              obtain ⟨a, ha⟩ := preprocess_eq_brace_brace (o := o) htag
              rw [ha] at h
              exact absurd (List.cons.inj h).1 hk.1
          | none =>
              rw [preprocess_cons_of_tagInner?_eq_none htag, List.cons_append] at h
              simp only [List.cons.injEq] at h
              obtain ⟨rfl, h⟩ := h
              obtain ⟨w', rfl, hv, hw'⟩ := ih hk.2 h
              exact ⟨w', rfl, hv, hw'.cons htag⟩

/-- A tag whose output differs was found as a plain tag, and would have been found with one more
brace before it. -/
theorem plainInner?_brace_ne_none {inner rest : Text}
    (h : tagInner? (braced inner ++ rest) = some (inner, rest))
    (hfirst : inner.head? ≠ some '{')
    (hchanged : tagOutput o inner ≠ braced inner) :
    plainInner? ('{' :: (inner ++ '}' :: '}' :: rest)) ≠ none := by
  obtain hcomment | ⟨-, hplain⟩ := comment_or_plain h
  · exact absurd (tagOutput_of_opensComment (opensComment_of_commentInner? hcomment)) hchanged
  · have hne : inner ≠ [] := by
      rintro rfl
      exact hchanged (tagOutput_nil o)
    obtain ⟨hlone, hlast⟩ := loneBraces_of_plainInner? hplain
    have hlast' : ('{' :: inner).getLast? ≠ some '{' := by
      rwa [List.getLast?_cons_of_ne_nil hne]
    rw [← List.cons_append, plainInner?_of_loneBraces (hlone.brace hne hfirst) hlast' rest]
    simp

/-- The output agrees with the template up to the opening braces of the first tag whose output
differs. -/
theorem preprocess_eq_self_or_differs (o : Options) (w : Text) :
    preprocess o w = w ∨ ∃ pre a b, w = pre ++ '{' :: '{' :: a ∧
      preprocess o w = pre ++ '{' :: '{' :: b ∧ (pre = [] → plainInner? ('{' :: a) ≠ none) := by
  induction w using pieces.induct with
  | case1 => exact Or.inl preprocess_nil
  | case2 c cs inner rest h ih =>
      have hw := tagInner?_eq_some h
      have hbraces := takeWhile_brace_append_braced inner
      have hpre := preprocess_of_tagInner?_eq_some (o := o) h
      by_cases hsame : tagOutput o (inner.dropWhile (· == '{')) =
          braced (inner.dropWhile (· == '{'))
      · rw [hsame, hbraces] at hpre
        obtain heq | ⟨pre, a, b, hr, hp, -⟩ := ih
        · exact Or.inl (by rw [hpre, heq, hw])
        · refine Or.inr ⟨braced inner ++ pre, a, b, ?_, ?_, ?_⟩
          · rw [hw, hr, List.append_assoc]
          · rw [hpre, hp, List.append_assoc]
          · simp [braced]
      · obtain ⟨new, hnew⟩ := exists_tagOutput_eq_braced o (inner.dropWhile (· == '{'))
        refine Or.inr ⟨inner.takeWhile (· == '{'),
          inner.dropWhile (· == '{') ++ '}' :: '}' :: rest,
          new ++ '}' :: '}' :: preprocess o rest, ?_, ?_, ?_⟩
        · calc c :: cs = braced inner ++ rest := hw
            _ = inner.takeWhile (· == '{') ++ braced (inner.dropWhile (· == '{')) ++ rest := by
              rw [hbraces]
            _ = _ := by simp [braced]
        · rw [hpre, hnew]
          simp [braced]
        · intro hnil
          have hfirst : inner.head? ≠ some '{' := by
            intro hhead
            obtain ⟨u, rfl⟩ := List.head?_eq_some_iff.1 hhead
            simp at hnil
          have hdrop : inner.dropWhile (· == '{') = inner := by
            have := List.takeWhile_append_dropWhile (p := (· == '{')) (l := inner)
            rwa [hnil, List.nil_append] at this
          rw [hdrop] at hsame ⊢
          rw [hw] at h
          exact plainInner?_brace_ne_none h hfirst hsame
  | case3 c cs h ih =>
      rw [preprocess_cons_of_tagInner?_eq_none h]
      obtain heq | ⟨pre, a, b, hr, hp, -⟩ := ih
      · exact Or.inl (by rw [heq])
      · exact Or.inr ⟨c :: pre, a, b, by rw [hr, List.cons_append], by rw [hp, List.cons_append],
          by simp⟩

/-- Where a pair of closing braces stands in a text with a tag, if what precedes the pair does not
end with a brace itself. -/
theorem closing_cases {front new back x r : Text} (hne : new ≠ []) (hnew : LoneBraces new)
    (hopen : x.getLast? ≠ some '{') (hclose : x.getLast? ≠ some '}')
    (h : front ++ new ++ '}' :: '}' :: back = x ++ '}' :: '}' :: r) :
    (x = front ++ new ∧ r = back) ∨
      (∃ k, k ≠ [] ∧ x = front ++ new ++ ['}'] ++ '}' :: k ∧ back = k ++ '}' :: '}' :: r) ∨
      ∃ l, front = x ++ '}' :: '}' :: l := by
  have hhead : ∀ u v : Text, '}' :: u ≠ new ++ v := by
    intro u v huv
    obtain ⟨c, n, rfl⟩ := List.exists_cons_of_ne_nil hne
    obtain ⟨rfl, -⟩ := List.cons.inj huv
    exact hnew.head?_ne rfl
  obtain ⟨k, rfl, hk⟩ | ⟨k, hxk, hk⟩ := List.append_eq_append_iff.1 h
  · obtain - | ⟨e, - | ⟨f, k⟩⟩ := k
    · simp only [List.nil_append, List.cons.injEq, true_and] at hk
      exact Or.inl ⟨List.append_nil _, hk.symm⟩
    · simp only [List.cons_append, List.nil_append, List.cons.injEq] at hk
      exact absurd (by simp [← hk.1]) hclose
    · simp only [List.cons_append, List.cons.injEq] at hk
      obtain ⟨rfl, rfl, hk⟩ := hk
      refine Or.inr (Or.inl ⟨k, ?_, by simp, hk⟩)
      rintro rfl
      exact absurd (by simp) hclose
  · cases k with
    | nil =>
        simp only [List.nil_append, List.cons.injEq, true_and] at hk
        exact Or.inl ⟨by rw [hxk, List.append_nil], hk⟩
    | cons e k =>
        simp only [List.cons_append, List.cons.injEq] at hk
        obtain ⟨rfl, hk⟩ := hk
        -- The pair begins within the tag's text or before it.
        obtain ⟨l, rfl, hl⟩ | ⟨l, rfl, hl⟩ := List.append_eq_append_iff.1 hxk
        · have hlast : l.getLast? = some '{' := by
            rw [hl] at hnew
            exact hnew.getLast?_eq
          have hl : l ≠ [] := by
            rintro rfl
            simp at hlast
          rw [Text.getLast?_append_of_ne_nil hl] at hopen
          exact absurd hlast hopen
        · obtain - | ⟨f, - | ⟨g, l⟩⟩ := l
          · exact absurd (by simpa using hl) (hhead k [])
          · obtain ⟨-, rfl⟩ := List.cons.inj hl
            exact absurd hk (hhead r _)
          · simp only [List.cons_append, List.cons.injEq] at hl
            obtain ⟨rfl, rfl⟩ := hl
            rw [List.cons_append, List.cons.injEq] at hk
            rw [← hk.1]
            exact Or.inr (Or.inr ⟨l, rfl⟩)

/-- A closing that the template does not have is the end of the replacement, or comes after it. -/
theorem closing_after_replacement {front new old rest back x r : Text} (hne : new ≠ [])
    (hnew : LoneBraces new)
    (hz : ∀ y s, front ++ (old ++ '}' :: '}' :: rest) = y ++ '}' :: '}' :: s → ¬ Dashed y)
    (hout : front ++ new ++ '}' :: '}' :: back = x ++ '}' :: '}' :: r) (hx : Dashed x) :
    (x = front ++ new ∧ r = back) ∨ ∃ k, Dashed k ∧ back = k ++ '}' :: '}' :: r := by
  have hlast : ∀ c, c ≠ '-' → c ≠ '~' → x.getLast? ≠ some c := by
    intro c hdash htilde hlast
    obtain h | h := getLast?_of_dashed hx
    · exact hdash (Option.some.inj (hlast.symm.trans h))
    · exact htilde (Option.some.inj (hlast.symm.trans h))
  obtain hr | ⟨k, hk, rfl, hback⟩ | ⟨l, hl⟩ :=
    closing_cases hne hnew (hlast '{' (by decide) (by decide))
      (hlast '}' (by decide) (by decide)) hout
  · exact .inl hr
  · exact .inr ⟨k, dashed_of_append_cons (by decide) hx hk, hback⟩
  · refine absurd hx (hz x (l ++ (old ++ '}' :: '}' :: rest)) ?_)
    rw [hl]
    simp

/-- What follows a closing of a block comment that only the output has: the closing ends the output
of a tag that did not end so itself, and the scan of the template continues after the tag. -/
inductive NewClosing (o : Options) (w r : Text) : Prop
  | intro {inner new rest : Text} (hmem : Piece.tag inner ∈ pieces w)
      (hout : tagOutput o inner = braced new) (hnew : Dashed new) (hinner : ¬ Dashed inner)
      (hrest : Resumes rest w) (hr : r = preprocess o rest)

theorem NewClosing.of_resumes {w w' r : Text} (h : NewClosing o w' r) (hw : Resumes w' w) :
    NewClosing o w r := by
  obtain ⟨hmem, hout, hnew, hinner, hrest, hr⟩ := h
  exact .intro (hw.mem hmem) hout hnew hinner (hrest.trans hw) hr

/-- A closing of a block comment that the template does not have ends the output of a tag. -/
theorem newClosing_of_dashed {w z x r : Text} (hs : EachTag (Tidy o) w)
    (hz : ∀ y s, z ++ w = y ++ '}' :: '}' :: s → ¬ Dashed y)
    (h : z ++ preprocess o w = x ++ '}' :: '}' :: r) (hx : Dashed x) : NewClosing o w r := by
  induction w using pieces.induct generalizing z x with
  | case1 =>
      rw [preprocess_nil] at h
      exact absurd hx (hz x r h)
  | case2 c cs inner rest htag ih =>
      have hw := tagInner?_eq_some htag
      have hafter : Resumes rest (c :: cs) := .after_tag htag
      have hrest := hs.of_resumes hafter
      have hbraces := takeWhile_brace_append_braced inner
      have hpre := preprocess_of_tagInner?_eq_some (o := o) htag
      obtain hsame | ⟨new, hnew, hne, hlone⟩ := hs _ (tag_mem_pieces htag)
      · rw [hsame, hbraces] at hpre
        have hz' : ∀ y s, (z ++ braced inner) ++ rest = y ++ '}' :: '}' :: s → ¬ Dashed y := by
          intro y s hy
          apply hz y s
          rw [hw, ← hy, List.append_assoc]
        have h' : (z ++ braced inner) ++ preprocess o rest = x ++ '}' :: '}' :: r := by
          rw [← h, hpre, List.append_assoc]
        exact (ih hrest hz' h' hx).of_resumes hafter
      · -- The text up to the new tag's own text is part of the template too.
        generalize hfront : z ++ inner.takeWhile (· == '{') ++ ['{', '{'] = front
        have hsource : z ++ c :: cs =
            front ++ (inner.dropWhile (· == '{') ++ '}' :: '}' :: rest) := by
          rw [hw, ← hbraces, ← hfront]
          simp [braced]
        have hout : front ++ new ++ '}' :: '}' :: preprocess o rest = x ++ '}' :: '}' :: r := by
          rw [← h, hpre, hnew, ← hfront]
          simp [braced]
        have hz' : ∀ y s, front ++ (inner.dropWhile (· == '{') ++ '}' :: '}' :: rest) =
            y ++ '}' :: '}' :: s → ¬ Dashed y := by
          intro y s hy
          exact hz y s (hsource.trans hy)
        obtain ⟨rfl, rfl⟩ | ⟨k, hdashed, hk⟩ := closing_after_replacement hne hlone hz' hout hx
        · have hdashed : Dashed new := by
            rw [← hfront, List.append_cons, List.append_assoc] at hx
            exact dashed_of_append_cons (by decide) hx hne
          have hinner : ¬ Dashed (inner.dropWhile (· == '{')) := fun hinner =>
            hz' _ rest (List.append_assoc _ _ _).symm (dashed_append hinner front)
          exact .intro (tag_mem_pieces htag) hnew hdashed hinner hafter rfl
        · have hzrest : ∀ y s, [] ++ rest = y ++ '}' :: '}' :: s → ¬ Dashed y := by
            intro y s hy hdy
            rw [List.nil_append] at hy
            refine hz' (front ++ inner.dropWhile (· == '{') ++ ['}', '}'] ++ y) s ?_
              (dashed_append hdy _)
            rw [hy]
            simp
          exact (ih hrest hzrest hk hdashed).of_resumes hafter
  | case3 c cs htag ih =>
      have hafter : Resumes cs (c :: cs) := .after_plain htag
      rw [preprocess_cons_of_tagInner?_eq_none htag] at h
      have hz' : ∀ y s, (z ++ [c]) ++ cs = y ++ '}' :: '}' :: s → ¬ Dashed y := by
        intro y s hy
        apply hz y s
        rw [← hy]
        simp
      have h' : (z ++ [c]) ++ preprocess o cs = x ++ '}' :: '}' :: r := by
        rw [← h]
        simp
      exact (ih (hs.of_resumes hafter) hz' h' hx).of_resumes hafter

/-- A block comment that only the output has ends with the output of a tag. -/
theorem newClosing_of_commentInner? {z w j r : Text}
    (hs : EachTag (Tidy o) w) (hnone : commentInner? (z ++ w) = none)
    (h : commentInner? (z ++ preprocess o w) = some (j, r)) :
    NewClosing o w r := by
  obtain ⟨op, u, k, hop, hu, -, hend⟩ := commentInner?_eq_some_iff.1 h
  obtain ⟨hk, hdashed, -⟩ := commentEnd?_eq_some_iff.1 hend
  -- A closing after the same opening would have made a comment of it in the template.
  have hopen : ∀ v, z ++ w = op ++ v → ∀ y s, v = y ++ '}' :: '}' :: s → ¬ Dashed y := by
    intro v hv y s hy
    cases hend' : commentEnd? v with
    | none => exact not_dashed_of_commentEnd?_eq_none hend' hy
    | some p =>
        rw [commentInner?_eq_some_iff.2 ⟨op, v, p.1, hop, hv, rfl, hend'⟩] at hnone
        simp at hnone
  obtain ⟨a, hopa, ha⟩ | ⟨a, rfl, ha⟩ := List.append_eq_append_iff.1 hu
  · have hbrace : '{' ∉ a := by
      intro hmem
      have hmem' : '{' ∈ op := by simp [hopa, hmem]
      obtain rfl | rfl := hop <;> simp at hmem'
    obtain ⟨w', rfl, hw', hresumes⟩ := preprocess_eq_append hbrace ha
    have hs' := hs.of_resumes hresumes
    have hz : ∀ y s, [] ++ w' = y ++ '}' :: '}' :: s → ¬ Dashed y := by
      apply hopen
      rw [hopa, List.append_assoc, List.nil_append]
    have hout : [] ++ preprocess o w' = k ++ '}' :: '}' :: r := by
      rw [List.nil_append, ← hw', hk]
    exact (newClosing_of_dashed hs' hz hout hdashed).of_resumes hresumes
  · refine newClosing_of_dashed hs (hopen _ (List.append_assoc _ _ _)) ?_ hdashed
    rw [← ha, hk]

/-- A block comment stays, so only what follows it may change. -/
theorem preprocess_of_commentInner? {u j r : Text} (h : commentInner? u = some (j, r))
    (hr : preprocess o r = r) : preprocess o ('{' :: '{' :: u) = '{' :: '{' :: u := by
  have htag : tagInner? ('{' :: '{' :: u) = some (j, r) := by simp [tagInner?, h]
  have hopen := opensComment_of_commentInner? h
  obtain ⟨htake, hdrop⟩ := takeWhile_eq_nil_of_opensComment hopen
  rw [preprocess_of_tagInner?_eq_some htag, htake, hdrop, tagOutput_of_opensComment hopen, hr,
    List.nil_append, ← tagInner?_eq_some htag]

/-- At most one opening brace is left over before a plain tag. -/
theorem takeWhile_brace_of_plainInner? {cs inner rest : Text}
    (h : plainInner? cs = some (inner, rest)) :
    inner.takeWhile (· == '{') = [] ∨ inner.takeWhile (· == '{') = ['{'] := by
  cases cs with
  | nil => simp [plainInner?] at h
  | cons c cs =>
      by_cases hc : c = '{'
      · subst hc
        cases cs with
        | nil => simp [plainInner?] at h
        | cons d cs =>
            by_cases hd : d = '{'
            · simp [plainInner?, hd] at h
            · simp only [plainInner?, hd, if_false, Option.map_eq_some_iff, Prod.mk.injEq,
                Prod.exists] at h
              obtain ⟨a, b, -, rfl, -⟩ := h
              simp [hd]
      · by_cases hclose : c = '}'
        · subst hclose
          rw [eq_nil_of_plainInner?_close h]
          simp
        · rw [plainInner?_cons hc hclose, Option.map_eq_some_iff] at h
          obtain ⟨p, -, hp⟩ := h
          simp only [Prod.mk.injEq] at hp
          rw [← hp.1]
          simp [hc]

/-- A sealed text is found again between its braces, also after one more brace. -/
theorem tagInner?_of_sealed {front new : Text} (hfront : front = [] ∨ front = ['{'])
    (hnew : Sealed new) (rest : Text) :
    tagInner? (front ++ braced new ++ rest) = some (front ++ new, rest) ∧
      (front ++ new).takeWhile (· == '{') = front ∧ (front ++ new).dropWhile (· == '{') = new := by
  obtain ⟨hne, hlone, hfirst, hlast, hcomment⟩ := hnew
  have hfound : tagInner? (front ++ braced new ++ rest) = some (front ++ new, rest) := by
    obtain rfl | rfl := hfront
    · simp [braced, tagInner?, hcomment, plainInner?_of_loneBraces hlone hlast]
    · have hlast' : ('{' :: new).getLast? ≠ some '{' := by
        rwa [List.getLast?_cons_of_ne_nil hne]
      have hplain := plainInner?_of_loneBraces (hlone.brace hne hfirst) hlast' rest
      have hnone : commentInner? ('{' :: (new ++ '}' :: '}' :: rest)) = none :=
        commentInner?_eq_none_of_head? (by simp) (by simp)
      rw [List.cons_append] at hplain
      simp [braced, tagInner?, hnone, hplain]
  obtain ⟨c, new, rfl⟩ := List.exists_cons_of_ne_nil hne
  have hc : c ≠ '{' := by simpa using hfirst
  refine ⟨hfound, ?_⟩
  obtain rfl | rfl := hfront <;> simp [hc]

/-- A sealed tag that stays as written stays after one more brace too. -/
theorem preprocess_of_sealed {front new rest : Text} (hfront : front = [] ∨ front = ['{'])
    (hnew : Sealed new) (hsame : tagOutput o new = braced new)
    (hrest : preprocess o rest = rest) :
    preprocess o (front ++ braced new ++ rest) = front ++ braced new ++ rest := by
  obtain ⟨htag, htake, hdrop⟩ := tagInner?_of_sealed hfront hnew rest
  rw [preprocess_of_tagInner?_eq_some htag, htake, hdrop, hsame, hrest]

/-- A tag that stays as written is found again, unless it opens a block comment that only the output
closes. -/
theorem tagInner?_after_unchanged {cs inner rest : Text} (hs : EachTag (Tidy o) rest)
    (htag : tagInner? cs = some (inner, rest)) :
    tagInner? (braced inner ++ preprocess o rest) = some (inner, preprocess o rest) ∨
      ∃ j r, commentInner? (inner ++ '}' :: '}' :: preprocess o rest) = some (j, r) ∧
        NewClosing o rest r := by
  obtain hcomment | ⟨hnone, hplain⟩ := comment_or_plain htag
  · left
    simp [braced, tagInner?, commentInner?_append hcomment]
  · cases hc : commentInner? (inner ++ '}' :: '}' :: preprocess o rest) with
    | none =>
        left
        simp [braced, tagInner?, hc, plainInner?_append hplain]
    | some p =>
        right
        have hnone' : commentInner? ((inner ++ ['}', '}']) ++ rest) = none := by simpa using hnone
        have hsome : commentInner? ((inner ++ ['}', '}']) ++ preprocess o rest) = some p := by
          simpa using hc
        exact ⟨p.1, p.2, rfl, newClosing_of_commentInner? hs hnone' hsome⟩

/-- The step over a tag that stays as written. -/
theorem preprocess_preprocess_of_unchanged {cs inner rest : Text}
    (hs : EachTag (Settled o) rest)
    (htag : tagInner? cs = some (inner, rest))
    (hsame : tagOutput o (inner.dropWhile (· == '{')) = braced (inner.dropWhile (· == '{')))
    (hagain : ∀ w', Resumes w' rest → preprocess o (preprocess o w') = preprocess o w') :
    preprocess o (preprocess o cs) = preprocess o cs := by
  have hout : preprocess o cs = braced inner ++ preprocess o rest := by
    rw [preprocess_of_tagInner?_eq_some htag, hsame, takeWhile_brace_append_braced]
  rw [hout]
  obtain htag' | ⟨j, r, hcomment, -, -, -, -, hw', rfl⟩ :=
    tagInner?_after_unchanged (hs.imp fun _ => Settled.tidy) htag
  · rw [preprocess_of_tagInner?_eq_some htag', hsame, takeWhile_brace_append_braced,
      hagain rest (Resumes.refl rest)]
  · have hstays := preprocess_of_commentInner? hcomment (hagain _ hw')
    simpa [braced] using hstays

/-- A tag whose output differs has at most one opening brace left over before it. -/
theorem takeWhile_brace_of_changed {cs inner rest : Text}
    (htag : tagInner? cs = some (inner, rest))
    (hchanged : tagOutput o (inner.dropWhile (· == '{')) ≠ braced (inner.dropWhile (· == '{'))) :
    plainInner? (inner ++ '}' :: '}' :: rest) = some (inner, rest) ∧
      (inner.takeWhile (· == '{') = [] ∨ inner.takeWhile (· == '{') = ['{']) := by
  obtain hc | ⟨-, hplain⟩ := comment_or_plain htag
  · have hopen := opensComment_of_commentInner? hc
    rw [(takeWhile_eq_nil_of_opensComment hopen).2] at hchanged
    exact absurd (tagOutput_of_opensComment hopen) hchanged
  · exact ⟨hplain, takeWhile_brace_of_plainInner? hplain⟩

/-- The step over a tag that is replaced. -/
theorem preprocess_preprocess_of_changed {cs inner rest new : Text}
    (htag : tagInner? cs = some (inner, rest))
    (hchanged : tagOutput o (inner.dropWhile (· == '{')) ≠ braced (inner.dropWhile (· == '{')))
    (hnew : tagOutput o (inner.dropWhile (· == '{')) = braced new) (hsealed : Sealed new)
    (hsame : tagOutput o new = braced new)
    (hagain : preprocess o (preprocess o rest) = preprocess o rest) :
    preprocess o (preprocess o cs) = preprocess o cs := by
  rw [preprocess_of_tagInner?_eq_some htag, hnew]
  exact preprocess_of_sealed (takeWhile_brace_of_changed htag hchanged).2 hsealed hsame hagain

/-- Of two opening braces in the output, the first of them plain text of the template, the text of a
plain tag does not follow, unless the template has it too. -/
theorem plainInner?_eq_none_of_plain {cs v : Text} (hplain : tagInner? ('{' :: cs) = none)
    (hout : preprocess o cs = '{' :: v) (hchanged : preprocess o cs ≠ cs) :
    plainInner? v = none := by
  obtain hself | ⟨pre, a, b, hcs, hpre, hthree⟩ := preprocess_eq_self_or_differs o cs
  · exact absurd hself hchanged
  · rw [hout] at hpre
    cases pre with
    | nil =>
        simp only [hcs, List.nil_append, tagInner?, Option.or_eq_none_iff] at hplain
        exact absurd hplain.2 (hthree rfl)
    | cons d pre =>
        simp only [List.cons_append, List.cons.injEq] at hpre
        obtain ⟨rfl, rfl⟩ := hpre
        simp only [hcs, List.cons_append, tagInner?, Option.or_eq_none_iff] at hplain
        exact plainInner?_eq_none_congr _ _ _ hplain.2

/-- After two such braces a block comment may follow that only the output has. -/
theorem newClosing_of_plain {cs v j r : Text} (hs : EachTag (Tidy o) cs)
    (hplain : tagInner? ('{' :: cs) = none) (hout : preprocess o cs = '{' :: v)
    (hcomment : commentInner? v = some (j, r)) :
    NewClosing o cs r := by
  cases cs with
  | nil => simp at hout
  | cons d cs =>
      cases htag : tagInner? (d :: cs) with
      | some p =>
          obtain ⟨a, ha⟩ := preprocess_eq_brace_brace (o := o) htag
          rw [ha, List.cons.injEq] at hout
          rw [← hout.2, commentInner?_eq_none_of_head? (by simp) (by simp)] at hcomment
          simp at hcomment
      | none =>
          rw [preprocess_cons_of_tagInner?_eq_none htag, List.cons.injEq] at hout
          obtain ⟨rfl, rfl⟩ := hout
          simp only [tagInner?, Option.or_eq_none_iff] at hplain
          have hafter := Resumes.after_plain htag
          have hcs := hs.of_resumes hafter
          exact (newClosing_of_commentInner? (z := []) hcs hplain.1 hcomment).of_resumes hafter

/-- A character outside of tags begins no tag of the output, unless a block comment begins with it
that only the output closes. -/
theorem tagInner?_after_plain {c : Char} {cs : Text} (hs : EachTag (Tidy o) cs)
    (hplain : tagInner? (c :: cs) = none) :
    tagInner? (c :: preprocess o cs) = none ∨
      ∃ v j r, c = '{' ∧ preprocess o cs = '{' :: v ∧ commentInner? v = some (j, r) ∧
        NewClosing o cs r := by
  by_cases hself : preprocess o cs = cs
  · rw [hself]
    exact .inl hplain
  · cases htag : tagInner? (c :: preprocess o cs) with
    | none => exact .inl rfl
    | some p =>
        obtain ⟨v, hv⟩ : ∃ v, c :: preprocess o cs = '{' :: '{' :: v := by
          rw [tagInner?_eq_some htag]
          exact ⟨_, rfl⟩
        obtain ⟨rfl, hout⟩ := List.cons.inj hv
        rw [hv, tagInner?, plainInner?_eq_none_of_plain hplain hout hself, Option.or_none] at htag
        exact .inr ⟨v, p.1, p.2, rfl, hout, htag, newClosing_of_plain hs hplain hout htag⟩

/-- The step over a character outside of tags. -/
theorem preprocess_preprocess_of_plain {c : Char} {cs : Text}
    (hs : EachTag (Settled o) cs) (hplain : tagInner? (c :: cs) = none)
    (hagain : ∀ w', Resumes w' cs → preprocess o (preprocess o w') = preprocess o w') :
    preprocess o (preprocess o (c :: cs)) = preprocess o (c :: cs) := by
  rw [preprocess_cons_of_tagInner?_eq_none hplain]
  obtain htag | ⟨v, j, r, rfl, hout, hcomment, -, -, -, -, hw', rfl⟩ :=
    tagInner?_after_plain (hs.imp fun _ => Settled.tidy) hplain
  · rw [preprocess_cons_of_tagInner?_eq_none htag, hagain cs (Resumes.refl cs)]
  · rw [hout]
    exact preprocess_of_commentInner? hcomment (hagain _ hw')

/-- Where every tag is settled, preprocessing a second time changes nothing. -/
theorem preprocess_preprocess_of_settled {w : Text} (hs : EachTag (Settled o) w) :
    preprocess o (preprocess o w) = preprocess o w := by
  induction hlen : w.length using Nat.strongRecOn generalizing w with
  | ind n ih =>
  cases w with
  | nil => simp
  | cons c cs =>
      cases htag : tagInner? (c :: cs) with
      | some p =>
          obtain ⟨inner, rest⟩ := p
          have hrest := hs.of_resumes (.after_tag htag)
          have hagain : ∀ w', Resumes w' rest →
              preprocess o (preprocess o w') = preprocess o w' := by
            intro w' hw'
            have hlt := length_lt_of_tagInner?_eq_some htag
            exact ih _ (hlen ▸ Nat.lt_of_le_of_lt hw'.length_le hlt)
              (hrest.of_resumes hw') rfl
          by_cases hsame : tagOutput o (inner.dropWhile (· == '{')) =
              braced (inner.dropWhile (· == '{'))
          · exact preprocess_preprocess_of_unchanged hrest htag hsame hagain
          · obtain h | ⟨new, hnew, hsealed, hstays⟩ := hs _ (tag_mem_pieces htag)
            · exact absurd h hsame
            · exact preprocess_preprocess_of_changed htag hsame hnew hsealed hstays
                (hagain rest (Resumes.refl rest))
      | none =>
          have hcs := hs.of_resumes (.after_plain htag)
          have hagain : ∀ w', Resumes w' cs →
              preprocess o (preprocess o w') = preprocess o w' := by
            intro w' hw'
            exact ih _ (hlen ▸ Nat.lt_of_le_of_lt hw'.length_le (Nat.lt_succ_self _))
              (hcs.of_resumes hw') rfl
          exact preprocess_preprocess_of_plain hcs htag hagain

end

end MustachePath
