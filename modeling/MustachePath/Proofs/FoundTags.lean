import MustachePath.Proofs.Rescanning
import MustachePath.Proofs.TagSpans

/-!
# Where tags are found

The scan comes to a place of a template outside of all tags, or a tag reaches over the place
(`resumes_or_tagAround`). A tag reaches over an opening pair of braces only if it is a block
comment, or if it begins one brace earlier and then is the tag of that pair (`meets`). So no pair of
double braces around a text without braces is missed (`exists_tag_or_comment_at`), and a block
comment is one tag up to its first closing (`exists_comment_at`). The exception is a comment right
after a brace: the tag that begins with that brace ends at any closing pair, and the rest of the
comment is scanned like the text outside of it (`exists_tag_of_cutShort`).
-/

namespace MustachePath

/-! ## The scan at a place -/

theorem tagsFrom_append (p : Position) (ps qs : List Piece) :
    tagsFrom p (ps ++ qs) = tagsFrom p ps ++ tagsFrom (p.advance (ps.flatMap Piece.text)) qs := by
  induction ps generalizing p with
  | nil => rfl
  | cons piece ps ih =>
      cases piece with
      | plain c => simp [tagsFrom, ih, Piece.text]
      | tag inner => simp [tagsFrom, ih, Piece.text]

/-- The tag that is found where the scan stands is a tag of the template. It begins after the braces
that are left over before it. -/
theorem exists_mem_tags_of_resumes {front cs found rest : Text} (hscan : Resumes cs (front ++ cs))
    (htag : tagInner? cs = some (found, rest)) :
    ∃ t ∈ tags (front ++ cs),
      t.start = Text.byteLength front + Text.byteLength (found.takeWhile (· == '{')) ∧
        t.inner = found.dropWhile (· == '{') := by
  obtain ⟨ps, hps⟩ := hscan
  have hfront : ps.flatMap Piece.text = front := by
    have htext := congrArg (List.flatMap Piece.text) hps
    rw [flatMap_text_pieces, List.flatMap_append, flatMap_text_pieces] at htext
    exact (List.append_cancel_right htext).symm
  rw [pieces_of_tagInner?_eq_some htag, ← List.append_assoc] at hps
  rw [tags_eq_tagsFrom, hps, tagsFrom_append]
  refine ⟨_, List.mem_append_right _ List.mem_cons_self, ?_, rfl⟩
  rw [Tag.start, Position.offset_advance, List.flatMap_append, flatMap_text_map_plain, hfront,
    Text.byteLength_append]
  exact Nat.zero_add _

/-- A tag that begins before a place of a template and ends after it, divided at the place. -/
structure TagAround (front before after rest found : Text) : Prop where
  before_ne_nil : before ≠ []
  after_ne_nil : after ≠ []
  parts : braced found = before ++ after
  scan : Resumes (before ++ after ++ rest) (front ++ (before ++ after ++ rest))
  tag : tagInner? (before ++ after ++ rest) = some (found, rest)

/-- A tag around a place is around it too when more stands before it, as far as the scan comes
there. -/
theorem TagAround.append {front before after rest found : Text}
    (h : TagAround front before after rest found) {p : Text}
    (hscan : Resumes (front ++ (before ++ after ++ rest))
      (p ++ (front ++ (before ++ after ++ rest)))) :
    TagAround (p ++ front) before after rest found where
  before_ne_nil := h.before_ne_nil
  after_ne_nil := h.after_ne_nil
  parts := h.parts
  scan := by
    rw [List.append_assoc p front]
    exact h.scan.trans hscan
  tag := h.tag

/-- The scan comes to a place outside of all tags, or there is a tag around the place. -/
theorem resumes_or_tagAround (front s : Text) :
    Resumes s (front ++ s) ∨ ∃ a before after rest found, front = a ++ before ∧ s = after ++ rest ∧
      TagAround a before after rest found := by
  -- The scan goes on after each tag and each character outside of tags, until it comes to the
  -- place.
  generalize hw : front ++ s = w
  induction w using pieces.induct generalizing front with
  | case1 =>
      obtain ⟨rfl, rfl⟩ := List.append_eq_nil_iff.1 hw
      exact Or.inl (.refl [])
  | case2 c cs found rest htag ih =>
      have hcs := tagInner?_eq_some htag
      obtain ⟨after, hparts, hs⟩ | ⟨front', hfront, hrest⟩ :=
        List.append_eq_append_iff.1 (hw.trans hcs)
      · by_cases hbefore : front = []
        · rw [← hw, hbefore]
          exact Or.inl (.refl s)
        · by_cases hafter : after = []
          · rw [hs, hafter]
            exact Or.inl (.after_tag htag)
          · refine Or.inr
              ⟨[], front, after, rest, found, rfl, hs, hbefore, hafter, hparts, .refl _, ?_⟩
            rwa [← hparts, ← hcs]
      · obtain hscan | ⟨a, before, after, r, inner, rfl, rfl, haround⟩ := ih front' hrest.symm
        · exact Or.inl (.tag htag hscan)
        · refine Or.inr ⟨braced found ++ a, before, after, r, inner, ?_, rfl, haround.append ?_⟩
          · rw [hfront, List.append_assoc]
          · have hafter := Resumes.after_tag htag
            rw [hcs, hrest] at hafter
            simpa only [List.append_assoc] using hafter
  | case3 c cs htag ih =>
      cases front with
      | nil =>
          rw [List.nil_append] at hw
          rw [hw]
          exact Or.inl (.refl _)
      | cons d front =>
          rw [List.cons_append, List.cons.injEq] at hw
          obtain ⟨rfl, hcs⟩ := hw
          obtain hscan | ⟨a, before, after, rest, found, rfl, rfl, haround⟩ := ih front hcs
          · exact Or.inl (.cons htag hscan)
          · refine Or.inr
              ⟨d :: a, before, after, rest, found, rfl, rfl, haround.append (p := [d]) ?_⟩
            have hafter := Resumes.after_plain htag
            rw [← hcs] at hafter
            simpa only [List.append_assoc, List.singleton_append] using hafter

/-! ## Tags around an opening pair -/

/-- No opening pair of braces stands in a plain tag after its own, nor across its closing pair. -/
theorem not_loneBraces_of_pair {k m inner : Text} (h : k ++ '{' :: '{' :: m = inner ++ ['}', '}']) :
    ¬ LoneBraces inner := by
  intro hlone
  obtain ⟨x, rfl, hx⟩ | ⟨x, -, hx⟩ := List.append_eq_append_iff.1 h
  · cases x with
    | nil => simp at hx
    | cons c x =>
        cases x with
        | nil => simp at hx
        | cons d x =>
            simp only [List.cons_append, List.cons.injEq] at hx
            obtain ⟨rfl, rfl, -⟩ := hx
            exact hlone.not_isInfix ⟨k, x, by simp⟩
  · have hopen : '{' ∈ ['}', '}'] := by
      rw [hx]
      simp
    simp at hopen

/-- How the scan meets an opening pair of braces. It comes to the pair outside of all tags, or it
takes the first of the pair for the second one of a plain tag, or the pair stands in a block
comment. -/
inductive Meets (front u : Text) : Prop
  | outside (hscan : Resumes ('{' :: '{' :: u) (front ++ '{' :: '{' :: u))
  | early {a found rest : Text} (hfront : front = a ++ ['{'])
      (hscan : Resumes ('{' :: '{' :: '{' :: u) (a ++ '{' :: '{' :: '{' :: u))
      (hplain : plainInner? ('{' :: u) = some (found, rest))
  | inComment {a before after rest found : Text} (hfront : front = a ++ before)
      (hafter : '{' :: '{' :: u = after ++ rest) (haround : TagAround a before after rest found)
      (hcomment : IsComment found)

theorem meets (front u : Text) : Meets front u := by
  obtain hscan | ⟨a, before, after, rest, found, hfront, hafter, haround⟩ :=
    resumes_or_tagAround front ('{' :: '{' :: u)
  · exact .outside hscan
  obtain hcomment | ⟨-, hplain⟩ := comment_or_plain haround.tag
  · exact .inComment hfront hafter haround (isComment_of_commentInner? hcomment)
  have hparts := haround.parts
  have hscan := haround.scan
  rw [List.append_assoc, ← hafter] at hscan
  obtain ⟨c, before, rfl⟩ := List.exists_cons_of_ne_nil haround.before_ne_nil
  cases before with
  | nil =>
      simp only [braced, List.cons_append, List.nil_append, List.cons.injEq] at hparts
      obtain ⟨rfl, hparts⟩ := hparts
      have hu : '{' :: u = found ++ '}' :: '}' :: rest := by
        rw [← hparts] at hafter
        simpa using hafter
      rw [← hu] at hplain
      exact .early hfront hscan hplain
  | cons d before =>
      -- The tag's own opening pair stands before the place, so the pair at the place is in its
      -- text.
      have hinner : before ++ after = found ++ ['}', '}'] :=
        (List.cons.inj (List.cons.inj hparts).2).2.symm
      have hlone := (loneBraces_of_plainInner? hplain).1
      obtain ⟨e, after, rfl⟩ := List.exists_cons_of_ne_nil haround.after_ne_nil
      cases after with
      | nil =>
          obtain ⟨rfl, -⟩ := List.cons.inj hafter
          have hlast := congrArg List.getLast? hinner
          simp at hlast
      | cons f after =>
          simp only [List.cons_append, List.cons.injEq] at hafter
          obtain ⟨rfl, rfl, -⟩ := hafter
          exact absurd hlone (not_loneBraces_of_pair hinner)

/-- A plain tag that begins one brace before an opening pair is the tag of that pair. -/
theorem exists_mem_tags_of_early {front a b u found rest : Text} (hne : b ≠ []) (ho : '{' ∉ b)
    (hc : '}' ∉ b) (hfront : front = a ++ ['{'])
    (hscan : Resumes ('{' :: '{' :: '{' :: (b ++ u)) (a ++ '{' :: '{' :: '{' :: (b ++ u)))
    (hplain : plainInner? ('{' :: (b ++ u)) = some (found, rest)) :
    ∃ v, plainInner? u = some (v, rest) ∧ ∃ t ∈ tags (front ++ '{' :: '{' :: (b ++ u)),
      t.start = Text.byteLength front ∧ t.inner = b ++ v := by
  have htag : tagInner? ('{' :: '{' :: '{' :: (b ++ u)) = some (found, rest) := by
    simp [tagInner?, commentInner?, hplain]
  obtain ⟨t, ht, hstart, hinner⟩ := exists_mem_tags_of_resumes hscan htag
  rw [plainInner?_brace_append hne ho hc, Option.map_eq_some_iff] at hplain
  obtain ⟨⟨v, r⟩, hv, hfound⟩ := hplain
  obtain ⟨rfl, rfl⟩ := Prod.mk.inj hfound
  have hfirst : Text.Stops (· == '{') (b ++ v) := by
    obtain ⟨c, b, rfl⟩ := List.exists_cons_of_ne_nil hne
    simp only [List.mem_cons, not_or] at ho
    exact Text.stops_cons.2 (beq_eq_false_iff_ne.2 (Ne.symm ho.1))
  refine ⟨v, hv, t, ?_, ?_, ?_⟩
  · simpa [hfront] using ht
  · rw [hstart, hfront, Text.byteLength_append, List.takeWhile_cons_of_pos (by decide),
      Text.takeWhile_eq_nil_of_stops hfirst]
  · rw [hinner, List.dropWhile_cons_of_pos (by decide), Text.dropWhile_eq_self_of_stops hfirst]

/-- A tag that is found at a place begins there, unless it begins with a brace. -/
theorem exists_mem_tags_of_outside {front cs inner rest : Text} (hscan : Resumes cs (front ++ cs))
    (htag : tagInner? cs = some (inner, rest)) (hfirst : Text.Stops (· == '{') inner) :
    ∃ t ∈ tags (front ++ cs), t.start = Text.byteLength front ∧ t.inner = inner := by
  obtain ⟨t, ht, hstart, hinner⟩ := exists_mem_tags_of_resumes hscan htag
  rw [Text.takeWhile_eq_nil_of_stops hfirst] at hstart
  rw [Text.dropWhile_eq_self_of_stops hfirst] at hinner
  exact ⟨t, ht, hstart, hinner⟩

/-! ## Braces around a text without braces -/

/-- Braces around a text without braces end before any closing pair that stands at their end or
after it. -/
theorem braced_isPrefix {b back m rest : Text} (hc : '}' ∉ b)
    (h : braced b ++ back = m ++ rest) (hm : ['}', '}'] <:+ m) : braced b <+: m := by
  obtain ⟨x, hx, -⟩ | ⟨x, hx, -⟩ := List.append_eq_append_iff.1 h
  · exact ⟨x, hx.symm⟩
  · -- Only two closing braces stand in the braced text, and both of them in `m`.
    obtain ⟨y, rfl⟩ := hm
    have htwo : (braced b).count '}' = 2 := by simp [braced, List.count_eq_zero.2 hc]
    cases x with
    | nil => exact ⟨[], by rw [hx, List.append_nil, List.append_nil]⟩
    | cons c x =>
        have hmem : '}' ∈ c :: x := by
          apply List.mem_of_getLast?
          rw [← Text.getLast?_append_of_ne_nil (s := y ++ ['}', '}']) (List.cons_ne_nil c x), ← hx,
            braced_eq_append, List.getLast?_append]
          rfl
        have hpos := List.count_pos_iff.2 hmem
        rw [hx, List.count_append, List.count_append] at htwo
        simp at htwo
        omega

/-- The second part of a tag around an opening pair ends with the tag's closing pair. -/
theorem TagAround.closing_isSuffix {front before after rest found u : Text}
    (h : TagAround front before after rest found) (hafter : '{' :: u = after ++ rest) :
    ['}', '}'] <:+ after := by
  have hclosing : ['}', '}'] <:+ braced found := ⟨'{' :: '{' :: found, rfl⟩
  rw [h.parts] at hclosing
  obtain hshort | hlong :=
    List.suffix_or_suffix_of_suffix hclosing (List.suffix_append before after)
  · exact hshort
  · obtain ⟨c, after, rfl⟩ := List.exists_cons_of_ne_nil h.after_ne_nil
    obtain ⟨rfl, -⟩ := List.cons.inj hafter
    have hmem := hlong.subset List.mem_cons_self
    simp at hmem

/-- A block comment around an opening pair is a tag that begins before the pair and ends after
it. -/
theorem TagAround.exists_mem_tags {front before after rest found : Text}
    (h : TagAround front before after rest found) (hcomment : IsComment found) :
    ∃ t ∈ tags (front ++ before ++ (after ++ rest)), t.inner = found ∧
      t.start = Text.byteLength front ∧ t.stop = Text.byteLength (front ++ before ++ after) := by
  obtain ⟨t, ht, hstart, hinner⟩ :=
    exists_mem_tags_of_outside h.scan h.tag hcomment.opensComment.stops_brace
  refine ⟨t, by simpa only [List.append_assoc] using ht, hinner, hstart, ?_⟩
  rw [Tag.stop, hstart, Tag.full, hinner, h.parts, List.append_assoc]
  exact (Text.byteLength_append front (before ++ after)).symm

/-- A block comment around an opening brace begins before the brace and ends after the next
character at the earliest. -/
theorem TagAround.exists_covering {front before after rest found u : Text}
    (h : TagAround front before after rest found) (hcomment : IsComment found)
    (hafter : '{' :: u = after ++ rest) :
    ∃ t ∈ tags (front ++ before ++ '{' :: u), t.start < Text.byteLength (front ++ before) ∧
      Text.byteLength (front ++ before) + 2 ≤ t.stop := by
  obtain ⟨t, ht, -, hstart, hstop⟩ := h.exists_mem_tags hcomment
  obtain ⟨k, hk⟩ := h.closing_isSuffix hafter
  have hpos := Text.byteLength_pos h.before_ne_nil
  have hclose : Text.byteLength ['}', '}'] = 2 := rfl
  rw [← hafter] at ht
  refine ⟨t, ht, ?_, ?_⟩
  · rw [hstart, Text.byteLength_append]
    omega
  · rw [hstop, ← hk, Text.byteLength_append (front ++ before), Text.byteLength_append k, hclose]
    omega

/-- What the scan finds at double braces around a text without braces: the text, or a block comment
that begins there and goes on after it. -/
theorem exists_tagInner?_braced {b : Text} (ho : '{' ∉ b) (hc : '}' ∉ b) (back : Text) :
    ∃ inner rest, tagInner? (braced b ++ back) = some (inner, rest) ∧
      Text.Stops (· == '{') inner ∧ braced b <+: braced inner ∧ (inner = b ∨ IsComment inner) := by
  have hpair : braced b ++ back = '{' :: '{' :: (b ++ '}' :: '}' :: back) := by simp [braced]
  cases hcomment : commentInner? (b ++ '}' :: '}' :: back) with
  | none =>
      refine ⟨b, back, ?_, Text.stops_of_notMem ho, List.prefix_refl _, Or.inl rfl⟩
      simp [hpair, tagInner?, hcomment, plainInner?_of_braceless ho hc back]
  | some p =>
      have htag : tagInner? (braced b ++ back) = some p := by simp [hpair, tagInner?, hcomment]
      exact ⟨p.1, p.2, htag, (opensComment_of_commentInner? hcomment).stops_brace,
        braced_isPrefix hc (tagInner?_eq_some htag) ⟨'{' :: '{' :: p.1, rfl⟩,
        Or.inr (isComment_of_commentInner? hcomment)⟩

/-- The scan misses no tag. Double braces around a text without braces are a tag at their place,
whatever stands before and after them, unless they stand in a block comment. -/
theorem exists_tag_or_comment_at (front back : Text) {b : Text} (hne : b ≠ []) (ho : '{' ∉ b)
    (hc : '}' ∉ b) :
    (∃ t ∈ tags (front ++ braced b ++ back),
      t.start = Text.byteLength front ∧ t.full = braced b) ∨
    ∃ t ∈ tags (front ++ braced b ++ back), IsComment t.inner ∧ t.start ≤ Text.byteLength front ∧
      Text.byteLength (front ++ braced b) ≤ t.stop := by
  have hpair : braced b ++ back = '{' :: '{' :: (b ++ '}' :: '}' :: back) := by simp [braced]
  rw [List.append_assoc, Text.byteLength_append]
  cases meets front (b ++ '}' :: '}' :: back) with
  | outside hscan =>
      rw [← hpair] at hscan
      obtain ⟨inner, rest, htag, hfirst, hlong, hinner⟩ := exists_tagInner?_braced ho hc back
      obtain ⟨t, ht, hstart, rfl⟩ := exists_mem_tags_of_outside hscan htag hfirst
      obtain hplain | hcomment := hinner
      · exact Or.inl ⟨t, ht, hstart, by rw [Tag.full, hplain]⟩
      · refine Or.inr ⟨t, ht, hcomment, hstart.le, ?_⟩
        rw [Tag.stop, Tag.full, hstart]
        exact Nat.add_le_add_left (Text.byteLength_le_of_isPrefix hlong) _
  | early hfront hscan hearly =>
      obtain ⟨v, hv, t, ht, hstart, hinner⟩ :=
        exists_mem_tags_of_early hne ho hc hfront hscan hearly
      obtain rfl : v = [] := eq_nil_of_plainInner?_close hv
      rw [← hpair] at ht
      exact Or.inl ⟨t, ht, hstart, by rw [Tag.full, hinner, List.append_nil]⟩
  | @inComment a before after rest found hfront hafter haround hcomment =>
      obtain ⟨t, ht, hinner, hstart, hstop⟩ := haround.exists_mem_tags hcomment
      have hclosing := haround.closing_isSuffix hafter
      rw [← hpair] at hafter
      have hlong : braced b <+: after := braced_isPrefix hc hafter hclosing
      rw [hafter, hfront]
      refine Or.inr ⟨t, ht, hinner ▸ hcomment, ?_, ?_⟩
      · rw [hstart]
        exact Text.byteLength_le_of_isPrefix (List.prefix_append a before)
      · rw [hstop, Text.byteLength_append (a ++ before)]
        exact Nat.add_le_add_left (Text.byteLength_le_of_isPrefix hlong) _

/-- A tag after a comment that was never closed, with a brace too many on either side. -/
theorem exists_tag_or_comment_at_braces :
    (['x'] ≠ [] ∧ '{' ∉ ['x'] ∧ '}' ∉ ['x']) ∧
      ∃ t ∈ tags ("\x7b\x7b!-- \x7b".toList ++ braced ['x'] ++ ['}']),
        t.start = 7 ∧ t.full = braced ['x'] := by
  have hinners : (tags ("\x7b\x7b!-- \x7b".toList ++ braced ['x'] ++ ['}'])).map Tag.inner =
      [['x']] := by
    decide +kernel
  obtain htag | ⟨t, ht, hcomment, -⟩ := exists_tag_or_comment_at "\x7b\x7b!-- \x7b".toList ['}']
    (b := ['x']) (by decide) (by decide) (by decide)
  · exact ⟨by decide, htag⟩
  · have hinner := List.mem_map_of_mem (f := Tag.inner) ht
    rw [hinners, List.mem_singleton] at hinner
    have hopens := hcomment.opensComment
    rw [hinner, OpensComment] at hopens
    revert hopens
    decide

/-! ## Block comments -/

/-- How the text after the opening dashes of a block comment divides at the comment's first
closing. -/
structure FirstClosing (u j rest : Text) : Prop where
  parts : u = j ++ '}' :: '}' :: rest
  dashed : Dashed j
  first : ∀ x s, u = x ++ '}' :: '}' :: s → Dashed x → j.length ≤ x.length

theorem exists_firstClosing {u x s : Text} (hu : u = x ++ '}' :: '}' :: s) (hx : Dashed x) :
    ∃ j rest, FirstClosing u j rest := by
  cases hend : commentEnd? u with
  | none => exact absurd hx (not_dashed_of_commentEnd?_eq_none hend hu)
  | some p =>
      obtain ⟨hparts, hdashed, hfirst⟩ := commentEnd?_eq_some_iff.1 hend
      exact ⟨p.1, p.2, hparts, hdashed, hfirst⟩

theorem braceless_opening {opening : Text}
    (h : opening = ['!', '-', '-'] ∨ opening = ['~', '!', '-', '-']) :
    opening ≠ [] ∧ '{' ∉ opening ∧ '}' ∉ opening := by
  obtain rfl | rfl := h
  · decide
  · decide

theorem FirstClosing.commentInner?_eq {u j rest opening : Text} (h : FirstClosing u j rest)
    (hopening : opening = ['!', '-', '-'] ∨ opening = ['~', '!', '-', '-']) :
    commentInner? (opening ++ u) = some (opening ++ j, rest) :=
  commentInner?_eq_some_iff.2 ⟨opening, u, j, hopening, rfl, rfl,
    commentEnd?_eq_some_iff.2 ⟨h.parts, h.dashed, h.first⟩⟩

/-- Where a plain tag ends with the dashes of a block comment, the comment's first closing is
there. -/
theorem FirstClosing.eq_of_dashed {u j rest v r : Text} (h : FirstClosing u j rest)
    (hu : u = v ++ '}' :: '}' :: r) (hlone : LoneBraces v) (hv : Dashed v) : v = j := by
  have hle := h.first v r hu hv
  obtain ⟨a, rfl, ha⟩ | ⟨a, rfl, -⟩ := List.append_eq_append_iff.1 (h.parts.symm.trans hu)
  · cases a with
    | nil => exact List.append_nil j
    | cons c a =>
        -- A closing brace after the dashes is not one that a plain tag may hold.
        obtain ⟨rfl, -⟩ := List.cons.inj ha
        have hlast := hlone.getLast?_eq
        obtain hdash | htilde := getLast?_of_dashed h.dashed
        · simp [hdash] at hlast
        · simp [htilde] at hlast
  · rw [List.length_append] at hle
    have ha : a = [] := List.length_eq_zero_iff.1 (by omega)
    rw [ha, List.append_nil]

/-- How a tag that is taken as a whole stands in its template: it is a control tag, and neither
another tag nor an edit reaches into it. -/
structure Tag.Whole (o : Options) (source : Text) (t : Tag) : Prop where
  found : t ∈ tags source
  control : t.decision o = .control
  alone : ∀ t' ∈ tags source, t' ≠ t → t'.stop ≤ t.start ∨ t.stop ≤ t'.start
  kept : ∀ e ∈ editsOf (analyze o source), e.stop ≤ t.start ∨ t.stop ≤ e.start

theorem apart_of_mem_tags {source : Text} {t t' : Tag} (ht : t ∈ tags source)
    (ht' : t' ∈ tags source) (hne : t' ≠ t) : t'.stop ≤ t.start ∨ t.stop ≤ t'.start := by
  have hapart : (tags source).Pairwise fun a b => a.stop ≤ b.start ∨ b.stop ≤ a.start :=
    (pairwise_stop_le_start_tags source).imp Or.inl
  have : Std.Symm fun a b : Tag => a.stop ≤ b.start ∨ b.stop ≤ a.start := ⟨fun _ _ => Or.symm⟩
  exact hapart.forall ht' ht hne

/-- A block comment is taken as a whole. -/
theorem whole_of_opensComment (o : Options) {source : Text} {t : Tag} (ht : t ∈ tags source)
    (hopens : OpensComment t.inner) : t.Whole o source := by
  have hcontrol : t.decision o = .control := by
    rw [Tag.decision, Tag.body, Decision.ofBody, if_pos (isControl_of_opensComment hopens)]
  refine ⟨ht, hcontrol, fun t' ht' hne => apart_of_mem_tags ht ht' hne, fun e he => ?_⟩
  rw [editsOf_analyze, List.mem_filterMap] at he
  obtain ⟨t', ht', hedit⟩ := he
  have hne : t' ≠ t := by
    rintro rfl
    simp [Tag.edit?, hcontrol, Decision.replacement] at hedit
  rw [Tag.edit?_eq_some hedit]
  exact apart_of_mem_tags ht ht' hne

/-- Whether a brace before the opening pair of a block comment makes the first brace of the pair the
second one of a plain tag, which then ends before the comment has any closing. -/
inductive CutShort (front u : Text) : Prop
  | intro {v r : Text} (hbrace : front.getLast? = some '{') (hu : u = v ++ '}' :: '}' :: r)
      (hlone : LoneBraces v) (hlast : v.getLast? ≠ some '{') (hdashed : ¬ Dashed v)

/-- A block comment is one tag up to its first closing, whatever stands in it, unless it begins in
another tag or a brace before it cuts it short. -/
theorem exists_comment_at (o : Options) (front opening u : Text)
    (hopening : opening = ['!', '-', '-'] ∨ opening = ['~', '!', '-', '-'])
    (hplace : ∀ t ∈ tags (front ++ '{' :: '{' :: (opening ++ u)),
      ¬ (t.start < Text.byteLength front ∧ Text.byteLength front < t.stop))
    (hclosing : ∃ x s, u = x ++ '}' :: '}' :: s ∧ Dashed x) (hwhole : ¬ CutShort front u) :
    ∃ (j rest : Text) (t : Tag), FirstClosing u j rest ∧
      t.Whole o (front ++ '{' :: '{' :: (opening ++ u)) ∧
      t.start = Text.byteLength front ∧ t.full = braced (opening ++ j) := by
  obtain ⟨x, s, hu, hx⟩ := hclosing
  obtain ⟨j, rest, hfirst⟩ := exists_firstClosing hu hx
  have hcomment := hfirst.commentInner?_eq hopening
  have hopens := opensComment_of_commentInner? hcomment
  obtain ⟨hne, ho, hc⟩ := braceless_opening hopening
  obtain ⟨t, ht, hstart, hinner⟩ : ∃ t ∈ tags (front ++ '{' :: '{' :: (opening ++ u)),
      t.start = Text.byteLength front ∧ t.inner = opening ++ j := by
    cases meets front (opening ++ u) with
    | outside hscan =>
        have htag : tagInner? ('{' :: '{' :: (opening ++ u)) = some (opening ++ j, rest) := by
          simp [tagInner?, hcomment]
        exact exists_mem_tags_of_outside hscan htag hopens.stops_brace
    | early hfront hscan hearly =>
        obtain ⟨v, hv, t, ht, hstart, hinner⟩ :=
          exists_mem_tags_of_early hne ho hc hfront hscan hearly
        obtain ⟨hparts, hlone, hlast⟩ := plainInner?_eq_some_iff.1 hv
        have hdashed : Dashed v := by
          refine not_not.1 fun hdashed => hwhole ⟨?_, hparts, hlone, hlast, hdashed⟩
          rw [hfront, List.getLast?_concat]
        exact ⟨t, ht, hstart, by rw [hinner, hfirst.eq_of_dashed hparts hlone hdashed]⟩
    | inComment hfront hafter haround hfound =>
        obtain ⟨t, ht, hstart, hstop⟩ := haround.exists_covering hfound hafter
        rw [← hfront] at ht hstart hstop
        exact absurd ⟨hstart, by omega⟩ (hplace t ht)
  exact ⟨j, rest, t, hfirst, whole_of_opensComment o ht (hinner ▸ hopens), hstart,
    by rw [Tag.full, hinner]⟩

/-- A comment with a whole tag in it, after a brace. -/
theorem exists_comment_at_nested :
    ∃ (j rest : Text) (t : Tag),
      FirstClosing (' ' :: braced "q[0]".toList ++ " --".toList ++ ['}', '}']) j rest ∧
        t.Whole Options.default (['{'] ++ '{' :: '{' :: (['!', '-', '-'] ++
          (' ' :: braced "q[0]".toList ++ " --".toList ++ ['}', '}']))) ∧
        t.start = 1 ∧ t.full = braced (['!', '-', '-'] ++ j) := by
  refine exists_comment_at Options.default ['{'] ['!', '-', '-']
    (' ' :: braced "q[0]".toList ++ " --".toList ++ ['}', '}']) (Or.inl rfl) (by decide +kernel)
    ⟨' ' :: braced "q[0]".toList ++ " --".toList, [], rfl,
      Or.inl ⟨' ' :: braced "q[0]".toList ++ [' '], rfl⟩⟩ ?_
  rintro ⟨-, hu, hlone, hlast, -⟩
  have hsome := plainInner?_eq_some_iff.2 ⟨hu, hlone, hlast⟩
  have hnone : plainInner? (' ' :: braced "q[0]".toList ++ " --".toList ++ ['}', '}']) = none := rfl
  rw [hnone] at hsome
  simp at hsome

/-- A block comment that is cut short is a tag up to its first closing pair instead, and what comes
after the pair is scanned as if it stood outside of the comment. -/
theorem exists_tag_of_cutShort {front opening u : Text}
    (hopening : opening = ['!', '-', '-'] ∨ opening = ['~', '!', '-', '-'])
    (hplace : ∀ t ∈ tags (front ++ '{' :: '{' :: (opening ++ u)),
      ¬ (t.start < Text.byteLength front ∧ Text.byteLength front < t.stop)) (h : CutShort front u) :
    ∃ v rest, u = v ++ '}' :: '}' :: rest ∧ ¬ Dashed v ∧
      ∃ t ∈ tags (front ++ '{' :: '{' :: (opening ++ u)),
        t.start = Text.byteLength front ∧ t.full = braced (opening ++ v) := by
  obtain ⟨hbrace, hu, hlone, hlast, hdashed⟩ := h
  obtain ⟨a, rfl⟩ := List.getLast?_eq_some_iff.1 hbrace
  obtain ⟨hne, ho, hc⟩ := braceless_opening hopening
  have hplain := plainInner?_eq_some_iff.2 ⟨hu, hlone, hlast⟩
  -- The scan meets the brace before the comment together with the first brace of the comment's
  -- pair.
  cases meets a ('{' :: (opening ++ u)) with
  | outside hscan =>
      have hearly := plainInner?_brace_append hne ho hc u
      rw [hplain, Option.map_some] at hearly
      obtain ⟨v, hv, t, ht, hstart, hinner⟩ :=
        exists_mem_tags_of_early hne ho hc rfl hscan hearly
      rw [hplain, Option.some.injEq, Prod.mk.injEq] at hv
      exact ⟨_, _, hu, hdashed, t, ht, hstart, by rw [Tag.full, hinner, ← hv.1]⟩
  | early hfront hscan hearly => simp [plainInner?] at hearly
  | inComment hfront hafter haround hfound =>
      obtain ⟨t, ht, hstart, hstop⟩ := haround.exists_covering hfound hafter
      rw [← hfront] at ht hstart hstop
      have hfront' : Text.byteLength (a ++ ['{']) = Text.byteLength a + 1 :=
        Text.byteLength_append a ['{']
      exact absurd ⟨by omega, by omega⟩ (hplace t (by simpa using ht))

/-- A brace before a comment that holds a closing pair cuts the comment short. -/
theorem not_exists_comment_at :
    ¬ ∀ (o : Options) (front opening u : Text),
      (opening = ['!', '-', '-'] ∨ opening = ['~', '!', '-', '-']) →
      (∀ t ∈ tags (front ++ '{' :: '{' :: (opening ++ u)),
        ¬ (t.start < Text.byteLength front ∧ Text.byteLength front < t.stop)) →
      (∃ x s, u = x ++ '}' :: '}' :: s ∧ Dashed x) →
      ∃ (j rest : Text) (t : Tag), FirstClosing u j rest ∧
        t.Whole o (front ++ '{' :: '{' :: (opening ++ u)) ∧
        t.start = Text.byteLength front ∧ t.full = braced (opening ++ j) := by
  intro h
  obtain ⟨j, rest, t, hfirst, hwhole, -, hfull⟩ := h Options.default ['{'] ['!', '-', '-']
    (" a \x7d\x7d ".toList ++ braced "q[0]".toList ++ " --\x7d\x7d".toList) (Or.inl rfl)
    (by decide +kernel) ⟨" a \x7d\x7d ".toList ++ braced "q[0]".toList ++ " --".toList, [], rfl,
      Or.inl ⟨" a \x7d\x7d ".toList ++ braced "q[0]".toList ++ [' '], rfl⟩⟩
  have htags : (tags (['{'] ++ '{' :: '{' :: (['!', '-', '-'] ++
      (" a \x7d\x7d ".toList ++ braced "q[0]".toList ++ " --\x7d\x7d".toList)))).map Tag.full =
        [braced "!-- a ".toList, braced "q[0]".toList] := by
    decide +kernel
  have hmem := List.mem_map_of_mem (f := Tag.full) hwhole.found
  rw [htags, hfull] at hmem
  simp only [List.mem_cons, List.not_mem_nil, or_false, braced_inj] at hmem
  obtain hcomment | hcall := hmem
  · have hj : j = " a ".toList := by simpa using hcomment
    have hdashed := hfirst.dashed
    rw [hj, Dashed] at hdashed
    revert hdashed
    decide
  · simp at hcall

end MustachePath
