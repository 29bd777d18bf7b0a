import MustachePath.Preprocess
import MustachePath.Proofs.LineTables

/-!
# Preprocessing as a splice

The edits of a template are applied from the last place to the first, each with the byte offsets of
the template as it was written. The result can be read off the template from left to right: the
span of every tag gives way to the tag's output, and the gaps between the spans stay.
-/

namespace MustachePath

namespace Text

theorem byteLength_le_of_isPrefix {s t : Text} (h : s <+: t) :
    byteLength s ≤ byteLength t := by
  obtain ⟨u, rfl⟩ := h
  rw [byteLength_append]
  exact Nat.le_add_right _ _

theorem byteLength_pos {cs : Text} (h : cs ≠ []) : 0 < byteLength cs := by
  cases cs with
  | nil => exact absurd rfl h
  | cons c cs =>
      have := c.utf8Size_pos
      simp only [byteLength_cons]
      omega

/-- Of two fronts of a text, the longer one begins with the shorter one. -/
theorem exists_append_of_byteLength_le {a b s t : Text} (h : a ++ s = b ++ t)
    (hle : byteLength b ≤ byteLength a) : ∃ k, a = b ++ k := by
  obtain ⟨k, hk, -⟩ | ⟨k, hk, -⟩ := List.append_eq_append_iff.1 h
  · cases k with
    | nil => exact ⟨[], by rw [hk, List.append_nil, List.append_nil]⟩
    | cons c k =>
        have hc := c.utf8Size_pos
        rw [hk, byteLength_append, byteLength_cons] at hle
        omega
  · exact ⟨k, hk⟩

end Text

namespace Edit

/-- The range of an edit lies in the text, and characters begin at both of its ends. -/
def FitsIn (text : Text) (e : Edit) : Prop :=
  ∃ front old back : Text, text = front ++ old ++ back ∧
    Text.byteLength front = e.start ∧ e.start + Text.byteLength old = e.stop

/-- Edits of a text in ascending order, none of which overlaps another. -/
structure Disjoint (text : Text) (edits : List Edit) : Prop where
  fit : ∀ e ∈ edits, e.FitsIn text
  apart : edits.Pairwise fun a b => a.stop ≤ b.start

/-- The text from a place on with the ranges of the edits replaced, read from left to right. Every
replacement follows the gap before its range. -/
def weave? (text : Text) : Nat → List Edit → Option Text
  | place, [] => text.slice? place (Text.byteLength text)
  | place, e :: es =>
    (text.slice? place e.start).bind fun gap =>
      (weave? text e.stop es).map fun rest => gap ++ e.replacement ++ rest

theorem splice?_append (front old back new : Text) :
    splice? (front ++ old ++ back)
      ⟨Text.byteLength front, Text.byteLength front + Text.byteLength old, new⟩ =
        some (front ++ new ++ back) := by
  have hstart : Text.splitAtByte? (Text.byteLength front) (front ++ old ++ back) =
      some (front, old ++ back) :=
    Text.splitAtByte?_eq_some_iff.2 ⟨by simp, rfl⟩
  have hstop : Text.splitAtByte? (Text.byteLength front + Text.byteLength old)
      (front ++ old ++ back) = some (front ++ old, back) :=
    Text.splitAtByte?_eq_some_iff.2 ⟨rfl, by simp⟩
  simp only [splice?, hstart, hstop, Nat.le_add_right, if_true]

/-- Applying edits at ascending places from the last to the first replaces their ranges as they are
read from left to right. The text up to the place of the first edit plays no part. -/
theorem foldrM_splice?_eq_weave? (front back : Text) {edits : List Edit}
    (hfit : ∀ e ∈ edits, e.FitsIn (front ++ back))
    (hplace : ∀ e ∈ edits, Text.byteLength front ≤ e.start)
    (hapart : edits.Pairwise fun a b => a.stop ≤ b.start) :
    ∃ rest, edits.foldrM (fun e text => splice? text e) (front ++ back) = some (front ++ rest) ∧
      weave? (front ++ back) (Text.byteLength front) edits = some rest := by
  induction edits generalizing front back with
  | nil =>
      refine ⟨back, rfl, ?_⟩
      have hslice := Text.slice?_append front back []
      rw [List.append_nil] at hslice
      rw [weave?, Text.byteLength_append, hslice]
  | cons e es ih =>
      obtain ⟨hfirst, hrest⟩ := List.pairwise_cons.1 hapart
      obtain ⟨upTo, old, after, htext, hstart, hstop⟩ := hfit e List.mem_cons_self
      obtain ⟨gap, rfl⟩ : ∃ gap, upTo = front ++ gap := by
        have hle : Text.byteLength front ≤ Text.byteLength upTo := by
          rw [hstart]
          exact hplace e List.mem_cons_self
        rw [List.append_assoc] at htext
        exact Text.exists_append_of_byteLength_le htext.symm hle
      have hgap : front ++ back = (front ++ gap ++ old) ++ after := htext
      have hend : Text.byteLength (front ++ gap ++ old) = e.stop := by
        rw [Text.byteLength_append, hstart, hstop]
      obtain ⟨rest, hfold, hweave⟩ := ih (front ++ gap ++ old) after
        (fun e' he' => hgap ▸ hfit e' (List.mem_cons_of_mem e he'))
        (fun e' he' => hend ▸ hfirst e' he') hrest
      refine ⟨gap ++ e.replacement ++ rest, ?_, ?_⟩
      · have hsplice := splice?_append (front ++ gap) old rest e.replacement
        rw [hstart, hstop] at hsplice
        rw [List.foldrM_cons, hgap, hfold]
        simpa using hsplice
      · have hslice : (front ++ back).slice? (Text.byteLength front) e.start = some gap := by
          rw [hgap, ← hstart, Text.byteLength_append, List.append_assoc]
          exact Text.slice?_append front gap (old ++ after)
        rw [weave?, hslice, Option.bind_some, hgap, ← hend, hweave]
        rfl

theorem perm_fromLast (edits : List Edit) : (fromLast edits).Perm edits :=
  List.mergeSort_perm edits _

/-- Whether an edit is applied no later than another one at a different place. -/
def isAfter (a b : Edit) : Bool := b.start ≤ a.start

theorem isAfter_trans (a b c : Edit) (hab : isAfter a b = true) (hbc : isAfter b c = true) :
    isAfter a c = true := by
  simp only [isAfter, decide_eq_true_eq] at hab hbc ⊢
  omega

theorem isAfter_total (a b : Edit) : (isAfter a b || isAfter b a) = true := by
  simp only [isAfter, Bool.or_eq_true, decide_eq_true_eq]
  omega

theorem pairwise_fromLast (edits : List Edit) :
    (fromLast edits).Pairwise fun a b => b.start ≤ a.start :=
  (List.pairwise_mergeSort isAfter_trans isAfter_total edits).imp fun h => of_decide_eq_true h

/-- Edits at different places are applied in one order, in whatever order they are given. -/
theorem fromLast_eq_of_perm {edits other : List Edit} (hperm : other.Perm edits)
    (hplaces : edits.Pairwise fun a b => a.start ≠ b.start) : fromLast other = fromLast edits := by
  have hlt : ∀ es : List Edit, es.Perm edits →
      (fromLast es).Pairwise fun a b => b.start < a.start := by
    intro es hes
    have hne : (fromLast es).Pairwise fun a b => a.start ≠ b.start :=
      hplaces.perm (hes.symm.trans (perm_fromLast es).symm) fun hab => hab.symm
    apply (pairwise_fromLast es).imp₂ _ hne
    intro a b hle hab
    omega
  apply List.Perm.eq_of_pairwise _ (hlt other hperm) (hlt edits (.refl edits))
  · exact (perm_fromLast other).trans (hperm.trans (perm_fromLast edits).symm)
  · intro a b _ _ hab hba
    omega

/-- Edits at ascending places are applied in reverse order. -/
theorem fromLast_eq_reverse {edits : List Edit}
    (h : edits.Pairwise fun a b => a.start < b.start) : fromLast edits = edits.reverse := by
  have hreverse : edits.reverse.Pairwise fun a b => isAfter a b = true :=
    List.pairwise_reverse.2 (h.imp fun hab => decide_eq_true (Nat.le_of_lt hab))
  have hsorted : fromLast edits.reverse = edits.reverse := List.mergeSort_of_pairwise hreverse
  rw [← hsorted]
  exact (fromLast_eq_of_perm (List.reverse_perm edits) (h.imp fun hab => Nat.ne_of_lt hab)).symm

/-- Edits at ascending places that do not overlap replace their ranges, and all else stays. -/
theorem applyAll?_eq_weave? {text : Text} {edits : List Edit} (hdisjoint : Disjoint text edits)
    (hascending : edits.Pairwise fun a b => a.start < b.start) :
    applyAll? edits text = weave? text 0 edits := by
  obtain ⟨rest, hfold, hweave⟩ := foldrM_splice?_eq_weave? [] text hdisjoint.fit
    (fun _ _ => Nat.zero_le _) hdisjoint.apart
  rw [applyAll?, fromLast_eq_reverse hascending, List.foldlM_reverse]
  exact hfold.trans hweave.symm

end Edit

/-- What stands for a tag that is written as the given text: the replacement if it is rewritten, and
otherwise what was written. -/
def Decision.output (written : Text) : Decision → Text
  | .rewrite text => text
  | .control => written
  | .leave _ => written
  | .invalid _ => written

theorem Decision.output_eq_getD (written : Text) (d : Decision) :
    d.output written = d.replacement.getD written := by
  cases d <;> rfl

/-- What stands for a tag in the preprocessed template. -/
def Tag.output (o : Options) (t : Tag) : Text := (t.decision o).output t.full

/-- The replacement of a tag's span by the tag's output. -/
def Tag.edit (o : Options) (t : Tag) : Edit := ⟨t.start, t.stop, t.output o⟩

/-- The edit that a tag asks for, if it is rewritten. -/
def Tag.edit? (o : Options) (t : Tag) : Option Edit :=
  (t.decision o).replacement.map fun text => ⟨t.start, t.stop, text⟩

theorem Tag.edit?_eq_some {o : Options} {t : Tag} {e : Edit} (h : t.edit? o = some e) :
    e = t.edit o := by
  simp only [Tag.edit?, Option.map_eq_some_iff] at h
  obtain ⟨text, htext, rfl⟩ := h
  simp [Tag.edit, Tag.output, Decision.output_eq_getD, htext]

theorem editsOf_analyze (o : Options) (source : Text) :
    editsOf (analyze o source) = (tags source).filterMap (Tag.edit? o) := by
  simp only [editsOf, analyze, List.filterMap_map]
  rfl

/-- What stands for the tag with an inner text. -/
def tagOutput (o : Options) (inner : Text) : Text :=
  (Decision.ofBody o (Text.trim inner)).output (braced inner)

/-- What stands for a piece in the preprocessed template. -/
def Piece.output (o : Options) : Piece → Text
  | .plain c => [c]
  | .tag inner => tagOutput o inner

@[simp] theorem Tag.output_mk (o : Options) (inner : Text) (p : Position) :
    Tag.output o ⟨inner, p⟩ = tagOutput o inner := rfl

section Tags

variable {front : Text} {p : Position} {ps : List Piece}

theorem offset_le_start_of_mem_tagsFrom {t : Tag} (h : t ∈ tagsFrom p ps) :
    p.offset ≤ t.start := by
  induction ps generalizing p with
  | nil => simp [tagsFrom] at h
  | cons piece ps ih =>
      cases piece with
      | plain c =>
          have hle := ih h
          simp only [Position.step] at hle
          omega
      | tag inner =>
          obtain rfl | h := List.mem_cons.1 h
          · exact Nat.le_refl _
          · have hle := ih h
            rw [Position.offset_advance] at hle
            omega

theorem pairwise_stop_le_start_tagsFrom (p : Position) (ps : List Piece) :
    (tagsFrom p ps).Pairwise fun a b => a.stop ≤ b.start := by
  induction ps generalizing p with
  | nil => exact List.Pairwise.nil
  | cons piece ps ih =>
      cases piece with
      | plain c => exact ih _
      | tag inner =>
          refine List.pairwise_cons.2 ⟨?_, ih _⟩
          intro t ht
          have hle := offset_le_start_of_mem_tagsFrom ht
          rwa [Position.offset_advance] at hle

theorem Tag.start_lt_stop (t : Tag) : t.start < t.stop := by
  have hpos : 0 < Text.byteLength t.full := Text.byteLength_pos (by simp [Tag.full, braced])
  simp only [Tag.stop]
  omega

theorem length_tagsFrom_le (p : Position) (ps : List Piece) :
    (tagsFrom p ps).length ≤ Text.byteLength (ps.flatMap Piece.text) := by
  induction ps generalizing p with
  | nil => exact Nat.le_refl _
  | cons piece ps ih =>
      rw [List.flatMap_cons, Text.byteLength_append]
      cases piece with
      | plain c => exact Nat.le_trans (ih _) (Nat.le_add_left _ _)
      | tag inner =>
          have hrest := ih (p.advance (braced inner))
          have hpos : 0 < Text.byteLength (Piece.tag inner).text :=
            Text.byteLength_pos (by simp [Piece.text, braced])
          rw [tagsFrom, List.length_cons]
          omega

/-- Every tag stands in the template at its place. -/
theorem exists_append_full_of_mem_tagsFrom {q : Position} (hp : p = q.advance front) {t : Tag}
    (h : t ∈ tagsFrom p ps) :
    ∃ a b : Text, front ++ ps.flatMap Piece.text = a ++ t.full ++ b ∧ q.advance a = t.position := by
  induction ps generalizing p front with
  | nil => simp [tagsFrom] at h
  | cons piece ps ih =>
      cases piece with
      | plain c =>
          have hstep : p.step c = q.advance (front ++ [c]) := by simp [hp]
          obtain ⟨a, b, heq, ha⟩ := ih hstep h
          exact ⟨a, b, by simpa [Piece.text] using heq, ha⟩
      | tag inner =>
          obtain rfl | h := List.mem_cons.1 h
          · exact ⟨front, ps.flatMap Piece.text, by simp [Piece.text, Tag.full], hp.symm⟩
          · have hadvance : p.advance (braced inner) = q.advance (front ++ braced inner) := by
              simp [hp]
            obtain ⟨a, b, heq, ha⟩ := ih hadvance h
            exact ⟨a, b, by simpa [Piece.text] using heq, ha⟩

/-- Reading pieces from left to right replaces each tag by its output. The gap is what has been
read since the last tag. -/
theorem weave?_tagsFrom (o : Options) (ps : List Piece) (gap : Text)
    (hp : p.offset = Text.byteLength (front ++ gap)) :
    Edit.weave? (front ++ gap ++ ps.flatMap Piece.text) (Text.byteLength front)
      ((tagsFrom p ps).map (Tag.edit o)) = some (gap ++ ps.flatMap (Piece.output o)) := by
  induction ps generalizing p front gap with
  | nil =>
      simpa [tagsFrom, Edit.weave?] using Text.slice?_append front gap []
  | cons piece ps ih =>
      cases piece with
      | plain c =>
          have hstep : (p.step c).offset = Text.byteLength (front ++ (gap ++ [c])) := by
            simp [Position.step, hp, Nat.add_assoc]
          simpa [tagsFrom, Piece.text, Piece.output] using ih (gap ++ [c]) hstep
      | tag inner =>
          have hstart : (front ++ gap ++ (Piece.tag inner :: ps).flatMap Piece.text).slice?
              (Text.byteLength front) p.offset = some gap := by
            rw [hp, Text.byteLength_append]
            exact Text.slice?_append front gap _
          have hadvance : (p.advance (braced inner)).offset =
              Text.byteLength (front ++ gap ++ braced inner ++ []) := by simp [hp, Nat.add_assoc]
          have hstop : (⟨inner, p⟩ : Tag).stop =
              Text.byteLength (front ++ gap ++ braced inner) := by
            simp [Tag.stop, Tag.start, Tag.full, hp, Nat.add_assoc]
          have htext : front ++ gap ++ (Piece.tag inner :: ps).flatMap Piece.text =
              front ++ gap ++ braced inner ++ [] ++ ps.flatMap Piece.text := by
            simp [Piece.text]
          rw [tagsFrom, List.map_cons, Edit.weave?]
          simp only [Tag.edit, hstop, Tag.output_mk]
          rw [Tag.start, hstart, htext, Option.bind_some]
          rw [ih [] hadvance]
          simp [Piece.output]

/-- Applying the edits of pieces from the last to the first replaces each tag by its output. -/
theorem foldlM_splice?_tagsFrom (o : Options) (ps : List Piece)
    (hp : p.offset = Text.byteLength front) :
    ((tagsFrom p ps).filterMap (Tag.edit? o)).reverse.foldlM Edit.splice?
      (front ++ ps.flatMap Piece.text) = some (front ++ ps.flatMap (Piece.output o)) := by
  induction ps generalizing p front with
  | nil => simp [tagsFrom]
  | cons piece ps ih =>
      cases piece with
      | plain c =>
          have hstep : (p.step c).offset = Text.byteLength (front ++ [c]) := by
            simp [Position.step, hp]
          simpa [tagsFrom, Piece.text, Piece.output] using ih hstep
      | tag inner =>
          have hadvance : (p.advance (braced inner)).offset =
              Text.byteLength (front ++ braced inner) := by simp [hp]
          have h := ih hadvance
          cases hr : (Decision.ofBody o (Text.trim inner)).replacement with
          | none =>
              have he : Tag.edit? o ⟨inner, p⟩ = none := by
                simp [Tag.edit?, Tag.decision, Tag.body, hr]
              have ht : tagOutput o inner = braced inner := by
                simp [tagOutput, Decision.output_eq_getD, hr]
              simpa [tagsFrom, he, Piece.text, Piece.output, ht] using h
          | some new =>
              have he : Tag.edit? o ⟨inner, p⟩ = some ⟨Text.byteLength front,
                  Text.byteLength front + Text.byteLength (braced inner), new⟩ := by
                simp [Tag.edit?, Tag.decision, Tag.body, hr, Tag.stop, Tag.start, Tag.full, hp]
              have ht : tagOutput o inner = new := by
                simp [tagOutput, Decision.output_eq_getD, hr]
              have hs := Edit.splice?_append front (braced inner)
                (ps.flatMap (Piece.output o)) new
              simp only [List.append_assoc] at h hs
              simp [tagsFrom, List.filterMap_cons_some he, List.foldlM_append, Piece.text,
                Piece.output, ht, h, hs]

end Tags

/-- A template has no more tags than bytes. -/
theorem length_tags_le (source : Text) : (tags source).length ≤ Text.byteLength source := by
  have hle := length_tagsFrom_le .start (pieces source)
  rwa [flatMap_text_pieces, ← tags_eq_tagsFrom] at hle

/-- The tags of a template end before the next one begins. -/
theorem pairwise_stop_le_start_tags (source : Text) :
    (tags source).Pairwise fun a b => a.stop ≤ b.start := by
  rw [tags_eq_tagsFrom]
  exact pairwise_stop_le_start_tagsFrom .start (pieces source)

theorem exists_append_full_of_mem_tags {source : Text} {t : Tag} (h : t ∈ tags source) :
    ∃ a b : Text, source = a ++ t.full ++ b ∧ Position.start.advance a = t.position := by
  have hstart : Position.start = Position.start.advance [] := rfl
  rw [tags_eq_tagsFrom] at h
  simpa only [List.nil_append, flatMap_text_pieces] using
    exists_append_full_of_mem_tagsFrom hstart h

/-- The byte offset of a tag is the length of the text before it. -/
theorem Tag.byteLength_of_advance_eq {t : Tag} {a : Text}
    (h : Position.start.advance a = t.position) : Text.byteLength a = t.start := by
  have hoffset := congrArg Position.offset h
  rw [Position.offset_advance] at hoffset
  exact (Nat.zero_add _).symm.trans hoffset

/-- The edits of a template fit it and do not overlap. -/
theorem disjoint_editsOf (o : Options) (source : Text) :
    Edit.Disjoint source (editsOf (analyze o source)) := by
  rw [editsOf_analyze]
  constructor
  · intro e he
    obtain ⟨t, ht, het⟩ := List.mem_filterMap.1 he
    obtain ⟨a, b, heq, ha⟩ := exists_append_full_of_mem_tags ht
    rw [Tag.edit?_eq_some het]
    exact ⟨a, t.full, b, heq, Tag.byteLength_of_advance_eq ha, rfl⟩
  · rw [List.pairwise_filterMap]
    apply (pairwise_stop_le_start_tags source).imp
    intro a b hab e he e' he'
    rw [Tag.edit?_eq_some he, Tag.edit?_eq_some he']
    exact hab

theorem pairwise_start_editsOf (o : Options) (source : Text) :
    (editsOf (analyze o source)).Pairwise fun a b => a.start < b.start := by
  rw [editsOf_analyze, List.pairwise_filterMap]
  apply (pairwise_stop_le_start_tags source).imp
  intro a b hab e he e' he'
  rw [Tag.edit?_eq_some he, Tag.edit?_eq_some he']
  exact Nat.lt_of_lt_of_le a.start_lt_stop hab

/-- No edit of a template is refused, and together they give the outputs of its pieces. -/
theorem applyAll?_editsOf (o : Options) (source : Text) :
    Edit.applyAll? (editsOf (analyze o source)) source =
      some ((pieces source).flatMap (Piece.output o)) := by
  have hlast : Edit.fromLast (editsOf (analyze o source)) =
      (editsOf (analyze o source)).reverse :=
    Edit.fromLast_eq_reverse (pairwise_start_editsOf o source)
  have hstart : Position.start.offset = Text.byteLength [] := rfl
  have h := foldlM_splice?_tagsFrom o (pieces source) hstart
  simp only [List.nil_append, flatMap_text_pieces] at h
  rw [Edit.applyAll?, hlast, editsOf_analyze, tags_eq_tagsFrom]
  exact h

/-- The preprocessed template is made of the outputs of the template's pieces. -/
theorem preprocess_eq_flatMap_output (o : Options) (source : Text) :
    preprocess o source = (pieces source).flatMap (Piece.output o) := by
  simp [preprocess, rewriteAll, applyAll?_editsOf]

/-- The preprocessed template is the template with the span of every tag replaced by the tag's
output, the gaps before, between and after the spans being kept. The edits it is made by fit the
template, do not overlap, and none of them is refused. -/
theorem weave?_tags_eq_preprocess (o : Options) (source : Text) :
    Edit.weave? source 0 ((tags source).map (Tag.edit o)) = some (preprocess o source) ∧
      Edit.Disjoint source (editsOf (analyze o source)) ∧
      Edit.applyAll? (editsOf (analyze o source)) source = some (preprocess o source) := by
  refine ⟨?_, disjoint_editsOf o source, ?_⟩
  · have hstart : Position.start.offset = Text.byteLength ([] ++ []) := rfl
    have h := weave?_tagsFrom o (pieces source) [] hstart
    simp only [List.nil_append, flatMap_text_pieces] at h
    rw [preprocess_eq_flatMap_output, tags_eq_tagsFrom]
    exact h
  · rw [applyAll?_editsOf, preprocess_eq_flatMap_output]

/-- A template with a tag that is rewritten, one that is left, a control tag and a malformed one. -/
def mixedTemplate : Text :=
  'é' :: braced "h p[0]".toList ++ '\n' :: braced "name".toList ++ braced "else".toList ++
    braced "#".toList

/-- The replacement of its first tag. -/
def mixedCall : Text := braced "h (convertFromDotNotation this \"p[0]\")".toList

/-- Only the first tag gives way to its replacement. -/
theorem weave?_tags_eq_preprocess_mixed :
    (tags mixedTemplate).map (Tag.decision .default) =
        [.rewrite mixedCall, .leave .nativePath, .control, .invalid .noHelper] ∧
      preprocess .default mixedTemplate =
        'é' :: mixedCall ++ '\n' :: braced "name".toList ++ braced "else".toList ++
          braced "#".toList := by
  obtain ⟨hweave, -, -⟩ := weave?_tags_eq_preprocess .default mixedTemplate
  have hvalue : Edit.weave? mixedTemplate 0 ((tags mixedTemplate).map (Tag.edit .default)) =
      some ('é' :: mixedCall ++ '\n' :: braced "name".toList ++ braced "else".toList ++
        braced "#".toList) := by
    decide +kernel
  exact ⟨by decide +kernel, Option.some.inj (hweave.symm.trans hvalue)⟩

end MustachePath
