import MustachePath.Proofs.Characters
import MustachePath.Proofs.Scanning

/-!
# The spans of tags

The tags of a template stand in it one after another, at the byte offsets that the scan gives them.
A tag is an opening pair of braces, its inner text and a closing pair, and unless it is a block
comment there is no other opening pair in it, whatever braces stand before it (`spanned_tags`).
Every tag has the line and the column of its first brace, and they name no other place of the
template (`placed_tags`).
-/

namespace MustachePath

/-- Whether an inner text is that of a block comment: opening dashes, and what ends with the closing
ones after them. -/
def IsComment (inner : Text) : Prop :=
  ∃ opening rest : Text, (opening = ['!', '-', '-'] ∨ opening = ['~', '!', '-', '-']) ∧
    inner = opening ++ rest ∧ Dashed rest

theorem isComment_of_commentInner? {cs i r : Text} (h : commentInner? cs = some (i, r)) :
    IsComment i := by
  obtain ⟨opening, u, rest, hopening, -, hi, hend⟩ := commentInner?_eq_some_iff.1 h
  exact ⟨opening, rest, hopening, hi, (commentEnd?_spec hend).1⟩

theorem IsComment.opensComment {inner : Text} (h : IsComment inner) : OpensComment inner := by
  obtain ⟨opening, rest, rfl | rfl, rfl, -⟩ := h
  · exact Or.inl ⟨rest, rfl⟩
  · exact Or.inr ⟨rest, rfl⟩

theorem LoneBraces.not_isInfix {cs : Text} (h : LoneBraces cs) : ¬ ['{', '{'] <:+: cs := by
  intro hpair
  have hlone : LoneBraces ['{', '{'] := h.of_isInfix hpair (by simp)
  exact (loneBraces_brace_cons.1 hlone).1 rfl

/-- The inner text of a tag begins after the last brace before it, and no two braces open another
tag in it unless it is a block comment. -/
theorem innermost_of_mem_pieces {w inner : Text} (h : Piece.tag inner ∈ pieces w) :
    inner.head? ≠ some '{' ∧ (IsComment inner ∨ ¬ ['{', '{'] <:+: inner) := by
  obtain ⟨cs, found, rest, htag, rfl⟩ := exists_tagInner?_of_mem_pieces h
  constructor
  · intro hhead
    have hbrace := Text.stops_dropWhile (· == '{') found '{' hhead
    simp at hbrace
  · obtain hcomment | ⟨-, hplain⟩ := comment_or_plain htag
    · left
      rw [(takeWhile_eq_nil_of_opensComment (opensComment_of_commentInner? hcomment)).2]
      exact isComment_of_commentInner? hcomment
    · right
      intro hpair
      have hsuffix := (List.dropWhile_suffix (l := found) (· == '{')).isInfix
      exact (loneBraces_of_plainInner? hplain).1.not_isInfix (hpair.trans hsuffix)

/-- How a tag stands in its template: the text between its offsets is the tag with its braces, and
the text between the braces is its body but for white space at the ends. -/
structure Tag.Spanned (source : Text) (t : Tag) : Prop where
  slice : source.slice? t.start t.stop = some t.full
  long : 4 ≤ Text.byteLength t.full
  opening : ['{', '{'] <+: t.full
  closing : ['}', '}'] <:+ t.full
  inside : ∃ inner, t.full.slice? 2 (Text.byteLength t.full - 2) = some inner ∧
    t.body = Text.trim inner ∧ inner.head? ≠ some '{' ∧
      (IsComment inner ∨ ¬ ['{', '{'] <:+: inner)

theorem braced_eq_append (inner : Text) : braced inner = ['{', '{'] ++ inner ++ ['}', '}'] := by
  simp [braced]

theorem byteLength_braced (inner : Text) :
    Text.byteLength (braced inner) = 2 + Text.byteLength inner + 2 := by
  have hopen : Text.byteLength ['{', '{'] = 2 := rfl
  have hclose : Text.byteLength ['}', '}'] = 2 := rfl
  rw [braced_eq_append, Text.byteLength_append, Text.byteLength_append, hopen, hclose]

theorem slice?_braced (inner : Text) :
    (braced inner).slice? 2 (Text.byteLength (braced inner) - 2) = some inner := by
  have hslice := Text.slice?_append ['{', '{'] inner ['}', '}']
  rw [byteLength_braced, Nat.add_sub_cancel, braced_eq_append]
  exact hslice

/-- The tags of a template stand in it in ascending order and apart from each other, each at its
offsets and with no other opening pair of braces in it but in a block comment. -/
theorem spanned_tags (source : Text) :
    ((tags source).Pairwise fun a b => a.start < b.start ∧ a.stop ≤ b.start) ∧
      ∀ t ∈ tags source, t.Spanned source := by
  constructor
  · refine (pairwise_stop_le_start_tags source).imp fun {a b} hapart => ?_
    exact ⟨Nat.lt_of_lt_of_le a.start_lt_stop hapart, hapart⟩
  · intro t ht
    obtain ⟨front, back, hsource, hposition⟩ := exists_append_full_of_mem_tags ht
    have hfront : Text.byteLength front = t.start := Tag.byteLength_of_advance_eq hposition
    have hinner := innermost_of_mem_pieces (mem_pieces_of_mem_tags ht)
    constructor
    · rw [hsource, Tag.stop, ← hfront]
      exact Text.slice?_append front t.full back
    · rw [Tag.full, byteLength_braced]
      omega
    · exact ⟨t.inner ++ ['}', '}'], rfl⟩
    · exact ⟨'{' :: '{' :: t.inner, rfl⟩
    · exact ⟨t.inner, slice?_braced t.inner, rfl, hinner⟩

/-- Of three braces the last two open the tag. -/
theorem spanned_tags_brace :
    (⟨['x'], ⟨1, 1, 2⟩⟩ : Tag) ∈ tags ('{' :: braced ['x'] ++ ['}']) ∧
      (⟨['x'], ⟨1, 1, 2⟩⟩ : Tag).Spanned ('{' :: braced ['x'] ++ ['}']) := by
  have hmem : (⟨['x'], ⟨1, 1, 2⟩⟩ : Tag) ∈ tags ('{' :: braced ['x'] ++ ['}']) := by
    decide +kernel
  exact ⟨hmem, (spanned_tags ('{' :: braced ['x'] ++ ['}'])).2 _ hmem⟩

/-- How a tag is placed in its template. The line counts the line feeds before the tag, and the
column the characters after the last of them; the table of lines says the same, and no other place
of the template has this line and this column. -/
structure Tag.Placed (source : Text) (t : Tag) : Prop where
  counted : ∃ front back : Text, source = front ++ t.full ++ back ∧
    Text.byteLength front = t.start ∧ t.position.line = Text.lineAfter front ∧
      t.position.column = Text.columnAfter front
  listed : Text.lineAndColumn? (Text.lineStarts source) source t.start =
    some (t.position.line, t.position.column)
  named : ∀ front back : Text, source = front ++ back → Text.lineAfter front = t.position.line →
    Text.columnAfter front = t.position.column → Text.byteLength front = t.start

/-- No place belongs before all lines of a template, no tag that was scanned is lost for want of a
place, and every tag has the line and the column that counting gives it. -/
theorem placed_tags (source : Text) :
    (∀ offset, Search.run (Text.lineStarts source) offset ≠ .missing 0) ∧
      (tags source).map (fun t => (t.inner, t.start)) = offsetsFrom 0 (pieces source) ∧
      ∀ t ∈ tags source, t.Placed source := by
  refine ⟨Text.run_lineStarts_ne source, ?_, fun t ht => ?_⟩
  · rw [tags_eq_tagsFrom]
    exact map_tagsFrom .start (pieces source)
  · obtain ⟨front, back, hsource, hposition⟩ := exists_append_full_of_mem_tags ht
    have hstart : Text.byteLength front = t.start := Tag.byteLength_of_advance_eq hposition
    have hline : t.position.line = Text.lineAfter front := by
      rw [← hposition, Position.line_advance_start]
    have hcolumn : t.position.column = Text.columnAfter front := by
      rw [← hposition, Position.column_advance_start]
    constructor
    · exact ⟨front, back, hsource, hstart, hline, hcolumn⟩
    · rw [hline, hcolumn, ← hstart, hsource, List.append_assoc]
      exact Text.lineAndColumn?_append front (t.full ++ back)
    · intro front' back' hsource' hline' hcolumn'
      rw [List.append_assoc] at hsource
      have hsame := Text.eq_of_lineAfter_of_columnAfter (hsource'.symm.trans hsource)
        (hline'.trans hline) (hcolumn'.trans hcolumn)
      rw [hsame, hstart]

/-- A tag at the beginning of the second line, moved on by a brace; the first line has a character
of two bytes. -/
theorem placed_tags_shifted :
    (⟨['x'], ⟨4, 2, 2⟩⟩ : Tag) ∈ tags ('é' :: '\n' :: '{' :: braced ['x'] ++ ['}']) ∧
      (⟨['x'], ⟨4, 2, 2⟩⟩ : Tag).Placed ('é' :: '\n' :: '{' :: braced ['x'] ++ ['}']) := by
  have hmem : (⟨['x'], ⟨4, 2, 2⟩⟩ : Tag) ∈
      tags ('é' :: '\n' :: '{' :: braced ['x'] ++ ['}']) := by
    decide +kernel
  exact ⟨hmem, (placed_tags ('é' :: '\n' :: '{' :: braced ['x'] ++ ['}'])).2.2 _ hmem⟩

end MustachePath
