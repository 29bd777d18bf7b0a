import MustachePath.Proofs.Braces
import MustachePath.Proofs.Characters
import MustachePath.Proofs.Splicing

/-!
# Scanning a template

A block comment ends at the first pair of closing braces after two dashes
(`commentEnd?_eq_some_iff`), and any other tag at the first pair of closing braces, provided no
brace in between is in its way. What a tag's reader takes does not depend on the text after the tag,
and the preprocessed template is put together tag by tag along the scan
(`preprocess_of_tagInner?_eq_some`).
-/

namespace MustachePath

/-- Whether a text ends with the dashes that close a block comment. -/
def Dashed (x : Text) : Prop := ['-', '-'] <:+ x ∨ ['-', '-', '~'] <:+ x

theorem not_dashed_nil : ¬ Dashed [] := by
  simp [Dashed]

theorem dashed_append {x : Text} (h : Dashed x) (a : Text) : Dashed (a ++ x) :=
  h.imp (fun h => h.trans (List.suffix_append a x)) fun h => h.trans (List.suffix_append a x)

theorem dashed_cons {c : Char} {x : Text} (h : Dashed (c :: x)) :
    Dashed x ∨ c :: x = ['-', '-'] ∨ c :: x = ['-', '-', '~'] := by
  obtain h | h := h
  · obtain h | h := List.suffix_cons_iff.1 h
    · exact Or.inr (Or.inl h.symm)
    · exact Or.inl (Or.inl h)
  · obtain h | h := List.suffix_cons_iff.1 h
    · exact Or.inr (Or.inr h.symm)
    · exact Or.inl (Or.inr h)

theorem getLast?_of_dashed {x : Text} (h : Dashed x) :
    x.getLast? = some '-' ∨ x.getLast? = some '~' := by
  obtain ⟨a, rfl⟩ | ⟨a, rfl⟩ := h
  · exact Or.inl (by simp)
  · exact Or.inr (by simp)

/-- Dashes after another character are dashes of their own. -/
theorem dashed_of_append_cons {a x : Text} {c : Char} (hc : c ≠ '-')
    (h : Dashed (a ++ c :: x)) (hx : x ≠ []) : Dashed x := by
  induction a with
  | nil =>
      obtain h | h | h := dashed_cons h
      · exact h
      · exact absurd (List.cons.inj h).1 hc
      · exact absurd (List.cons.inj h).1 hc
  | cons d a ih =>
      obtain h | h | h := dashed_cons h
      · exact ih h
      · obtain - | ⟨e, a⟩ := a
        · simp [hc] at h
        · simp at h
      · obtain - | ⟨e, a⟩ := a
        · simp [hc] at h
        · obtain - | ⟨f, a⟩ := a
          · simp at h
            exact absurd h.2.2.2 hx
          · simp at h

/-- A closing of a block comment that is not found is not there. -/
theorem not_dashed_of_commentEnd?_eq_none {cs x r : Text} (h : commentEnd? cs = none)
    (hcs : cs = x ++ '}' :: '}' :: r) : ¬ Dashed x := by
  fun_induction commentEnd? cs generalizing x with
  | case1 => simp at h
  | case2 => simp at h
  | case3 c cs h₁ h₂ ih =>
      rw [Option.map_eq_none_iff] at h
      intro hx
      cases x with
      | nil => exact not_dashed_nil hx
      | cons d x =>
          simp only [List.cons_append, List.cons.injEq] at hcs
          obtain ⟨rfl, hcs⟩ := hcs
          obtain hx | hx | hx := dashed_cons hx
          · exact ih h hcs hx
          · simp only [List.cons.injEq] at hx
            obtain ⟨rfl, rfl⟩ := hx
            exact h₁ r rfl hcs
          · simp only [List.cons.injEq] at hx
            obtain ⟨rfl, rfl⟩ := hx
            exact h₂ r rfl hcs
  | case4 =>
      simp at hcs

/-- A closing of a block comment that is found is the first one. -/
theorem commentEnd?_spec {cs i r : Text} (h : commentEnd? cs = some (i, r)) :
    Dashed i ∧ ∀ x s, cs = x ++ '}' :: '}' :: s → Dashed x → i.length ≤ x.length := by
  fun_induction commentEnd? cs generalizing i with
  | case1 cs =>
      obtain ⟨rfl, rfl⟩ : ['-', '-'] = i ∧ cs = r := by simpa using h
      refine ⟨Or.inl (List.suffix_refl _), fun x s _ hx => ?_⟩
      obtain hx | hx := hx
      · exact hx.length_le
      · exact Nat.le_trans (by simp) hx.length_le
  | case2 cs =>
      obtain ⟨rfl, rfl⟩ : ['-', '-', '~'] = i ∧ cs = r := by simpa using h
      refine ⟨Or.inr (List.suffix_refl _), fun x s hcs hx => ?_⟩
      obtain hx | hx := hx
      · obtain ⟨a, rfl⟩ := hx
        cases a with
        | nil => simp at hcs
        | cons d a => simp
      · exact hx.length_le
  | case3 c cs h₁ h₂ ih =>
      simp only [Option.map_eq_some_iff, Prod.mk.injEq, Prod.exists] at h
      obtain ⟨a, b, hab, rfl, rfl⟩ := h
      obtain ⟨hdashed, hfirst⟩ := ih hab
      refine ⟨dashed_append hdashed [c], fun x s hcs hx => ?_⟩
      cases x with
      | nil => exact absurd hx not_dashed_nil
      | cons d x =>
          simp only [List.cons_append, List.cons.injEq] at hcs
          obtain ⟨rfl, hcs⟩ := hcs
          obtain hx | hx | hx := dashed_cons hx
          · simpa using hfirst x s hcs hx
          · simp only [List.cons.injEq] at hx
            obtain ⟨rfl, rfl⟩ := hx
            exact absurd hcs (h₁ s rfl)
          · simp only [List.cons.injEq] at hx
            obtain ⟨rfl, rfl⟩ := hx
            exact absurd hcs (h₂ s rfl)
  | case4 => simp at h

/-- A text divides at the closing of a block comment exactly if the dashes stand before it and no
earlier place will do. -/
theorem commentEnd?_eq_some_iff {cs i r : Text} :
    commentEnd? cs = some (i, r) ↔ cs = i ++ '}' :: '}' :: r ∧ Dashed i ∧
      ∀ x s, cs = x ++ '}' :: '}' :: s → Dashed x → i.length ≤ x.length := by
  constructor
  · intro h
    exact ⟨commentEnd?_eq_some h, commentEnd?_spec h⟩
  · rintro ⟨hcs, hi, hfirst⟩
    cases hend : commentEnd? cs with
    | none => exact absurd hi (not_dashed_of_commentEnd?_eq_none hend hcs)
    | some p =>
        obtain ⟨j, s⟩ := p
        have hjs := commentEnd?_eq_some hend
        obtain ⟨hj, hjfirst⟩ := commentEnd?_spec hend
        have hlen : i.length = j.length :=
          Nat.le_antisymm (hfirst j s hjs hj) (hjfirst i r hcs hi)
        obtain ⟨rfl, heq⟩ := List.append_inj (hcs.symm.trans hjs) hlen
        simp only [List.cons.injEq, true_and] at heq
        rw [heq]

/-- What is read as a block comment does not depend on what follows the comment. -/
theorem commentEnd?_append {cs i r : Text} (h : commentEnd? cs = some (i, r)) (s : Text) :
    commentEnd? (i ++ '}' :: '}' :: s) = some (i, s) := by
  obtain ⟨rfl, hi, hfirst⟩ := commentEnd?_eq_some_iff.1 h
  refine commentEnd?_eq_some_iff.2 ⟨rfl, hi, fun x t hxt hx => ?_⟩
  refine Nat.le_of_not_lt fun hlt => ?_
  -- An earlier closing would end within the comment and stand in the first text too.
  have hshort : x ++ ['}', '}'] <+: i ++ '}' :: '}' :: s := ⟨t, by simp [hxt]⟩
  have hlong : i ++ ['}', '}'] <+: i ++ '}' :: '}' :: s := ⟨s, by simp⟩
  have hle : (x ++ ['}', '}']).length ≤ (i ++ ['}', '}']).length := by
    simp only [List.length_append, List.length_cons, List.length_nil]
    omega
  obtain ⟨k, hk⟩ := List.prefix_of_prefix_length_le hshort hlong hle
  have hcs : i ++ '}' :: '}' :: r = x ++ '}' :: '}' :: (k ++ r) := by
    calc i ++ '}' :: '}' :: r = (i ++ ['}', '}']) ++ r := by simp
      _ = (x ++ ['}', '}'] ++ k) ++ r := by rw [hk]
      _ = x ++ '}' :: '}' :: (k ++ r) := by simp
  exact Nat.not_le_of_lt hlt (hfirst x (k ++ r) hcs hx)

/-- Whether a tag's inner text is that of a block comment. -/
def OpensComment (inner : Text) : Prop :=
  ['!', '-', '-'] <+: inner ∨ ['~', '!', '-', '-'] <+: inner

/-- A block comment is its opening dashes and what follows up to its closing. -/
theorem commentInner?_eq_some_iff {cs i r : Text} :
    commentInner? cs = some (i, r) ↔ ∃ o u j : Text,
      (o = ['!', '-', '-'] ∨ o = ['~', '!', '-', '-']) ∧ cs = o ++ u ∧ i = o ++ j ∧
        commentEnd? u = some (j, r) := by
  constructor
  · intro h
    unfold commentInner? at h
    split at h
    · rename_i u
      simp only [Option.map_eq_some_iff, Prod.mk.injEq, Prod.exists] at h
      obtain ⟨j, s, hj, rfl, rfl⟩ := h
      exact ⟨_, u, j, Or.inl rfl, rfl, rfl, hj⟩
    · rename_i u
      simp only [Option.map_eq_some_iff, Prod.mk.injEq, Prod.exists] at h
      obtain ⟨j, s, hj, rfl, rfl⟩ := h
      exact ⟨_, u, j, Or.inr rfl, rfl, rfl, hj⟩
    · simp at h
  · rintro ⟨o, u, j, rfl | rfl, rfl, rfl, hu⟩
    · simp [commentInner?, hu]
    · simp [commentInner?, hu]

theorem opensComment_of_commentInner? {cs i r : Text} (h : commentInner? cs = some (i, r)) :
    OpensComment i := by
  obtain ⟨o, u, j, rfl | rfl, -, rfl, -⟩ := commentInner?_eq_some_iff.1 h
  · exact Or.inl ⟨j, rfl⟩
  · exact Or.inr ⟨j, rfl⟩

theorem OpensComment.stops_brace {inner : Text} (h : OpensComment inner) :
    Text.Stops (· == '{') inner := by
  obtain ⟨j, rfl⟩ | ⟨j, rfl⟩ := h
  · exact Text.stops_cons.2 rfl
  · exact Text.stops_cons.2 rfl

/-- What is left of a tag's inner text after its leading braces is all of it for a block comment. -/
theorem takeWhile_eq_nil_of_opensComment {inner : Text} (h : OpensComment inner) :
    inner.takeWhile (· == '{') = [] ∧ inner.dropWhile (· == '{') = inner :=
  ⟨Text.takeWhile_eq_nil_of_stops h.stops_brace, Text.dropWhile_eq_self_of_stops h.stops_brace⟩

theorem commentInner?_append {cs i r : Text} (h : commentInner? cs = some (i, r)) (s : Text) :
    commentInner? (i ++ '}' :: '}' :: s) = some (i, s) := by
  obtain ⟨o, u, j, ho, -, rfl, hu⟩ := commentInner?_eq_some_iff.1 h
  exact commentInner?_eq_some_iff.2
    ⟨o, j ++ '}' :: '}' :: s, j, ho, by simp, rfl, commentEnd?_append hu s⟩

theorem commentInner?_eq_none_of_head? {cs : Text} (hb : cs.head? ≠ some '!')
    (ht : cs.head? ≠ some '~') : commentInner? cs = none := by
  unfold commentInner?
  split
  · simp at hb
  · simp at ht
  · rfl

/-- Whether a plain tag can be read is settled before the next opening pair of braces. -/
theorem plainInner?_eq_none_congr (pre s t : Text)
    (h : plainInner? (pre ++ '{' :: '{' :: s) = none) :
    plainInner? (pre ++ '{' :: '{' :: t) = none := by
  fun_induction plainInner? pre with
  | case1 cs => simp [plainInner?] at h
  | case2 cs => simp [plainInner?]
  | case3 c cs hc ih =>
      simp only [List.cons_append, plainInner?, hc, if_false, Option.map_eq_none_iff] at h ⊢
      exact ih h
  | case4 c cs h₁ h₂ hc =>
      obtain rfl | rfl := hc
      · cases cs with
        | nil => simp [plainInner?]
        | cons d cs => exact absurd rfl (h₂ d cs rfl)
      · cases cs with
        | nil => simp [plainInner?]
        | cons d cs =>
            have hd : d ≠ '}' := fun hd => h₁ cs rfl (by rw [hd])
            simp [plainInner?, hd]
  | case5 c cs h₁ h₂ hc ih =>
      simp only [not_or] at hc
      rw [List.cons_append, plainInner?_cons hc.1 hc.2, Option.map_eq_none_iff] at h ⊢
      exact ih h
  | case6 => simp [plainInner?]

/-- A tag is a block comment or a plain tag. -/
theorem comment_or_plain {cs inner rest : Text} (h : tagInner? cs = some (inner, rest)) :
    commentInner? (inner ++ '}' :: '}' :: rest) = some (inner, rest) ∨
      commentInner? (inner ++ '}' :: '}' :: rest) = none ∧
        plainInner? (inner ++ '}' :: '}' :: rest) = some (inner, rest) := by
  rw [← Option.or_eq_some_iff, ← h, tagInner?_eq_some h]
  simp [braced, tagInner?]

theorem pieces_of_tagInner?_eq_some {cs inner rest : Text}
    (h : tagInner? cs = some (inner, rest)) :
    pieces cs = (inner.takeWhile (· == '{')).map .plain ++
      .tag (inner.dropWhile (· == '{')) :: pieces rest := by
  cases cs with
  | nil => simp [tagInner?] at h
  | cons c cs =>
      rw [pieces]
      split
      · rename_i heq
        rw [h] at heq
        simp only [Option.some.injEq, Prod.mk.injEq] at heq
        rw [heq.1, heq.2]
      · rename_i heq
        rw [h] at heq
        simp at heq

theorem pieces_cons_of_tagInner?_eq_none {c : Char} {cs : Text}
    (h : tagInner? (c :: cs) = none) : pieces (c :: cs) = .plain c :: pieces cs := by
  rw [pieces]
  split
  · rename_i heq
    rw [h] at heq
    simp at heq
  · rfl

/-- A text without braces, put between braces, is one tag, unless it opens a block comment. -/
theorem pieces_braced {inner : Text} (ho : '{' ∉ inner) (hc : '}' ∉ inner)
    (hcomment : commentInner? (inner ++ ['}', '}']) = none) :
    pieces (braced inner) = [.tag inner] := by
  have htag : tagInner? (braced inner) = some (inner, []) := by
    simp [braced, tagInner?, hcomment, plainInner?_of_braceless ho hc []]
  have hstop : Text.Stops (· == '{') inner := Text.stops_of_notMem ho
  rw [pieces_of_tagInner?_eq_some htag, Text.takeWhile_eq_nil_of_stops hstop,
    Text.dropWhile_eq_self_of_stops hstop, pieces]
  rfl

theorem tags_braced {inner : Text} (ho : '{' ∉ inner) (hc : '}' ∉ inner)
    (hcomment : commentInner? (inner ++ ['}', '}']) = none) :
    tags (braced inner) = [⟨inner, .start⟩] := by
  rw [tags_eq_tagsFrom, pieces_braced ho hc hcomment]
  rfl

section Preprocess

variable {o : Options}

@[simp] theorem preprocess_nil : preprocess o [] = [] := by
  rw [preprocess_eq_flatMap_output, pieces]
  rfl

/-- The tag at the front of a template gives way to its output. -/
theorem preprocess_of_tagInner?_eq_some {cs inner rest : Text}
    (h : tagInner? cs = some (inner, rest)) :
    preprocess o cs = inner.takeWhile (· == '{') ++
      tagOutput o (inner.dropWhile (· == '{')) ++ preprocess o rest := by
  have hplain : ∀ w : Text, (w.map Piece.plain).flatMap (Piece.output o) = w := by
    intro w
    induction w with
    | nil => rfl
    | cons c w ih => simp [Piece.output, ih]
  simp [preprocess_eq_flatMap_output, pieces_of_tagInner?_eq_some h, hplain, Piece.output]

/-- A character outside of tags stays. -/
theorem preprocess_cons_of_tagInner?_eq_none {c : Char} {cs : Text}
    (h : tagInner? (c :: cs) = none) : preprocess o (c :: cs) = c :: preprocess o cs := by
  simp [preprocess_eq_flatMap_output, pieces_cons_of_tagInner?_eq_none h, Piece.output]

theorem preprocess_braced {inner : Text} (ho : '{' ∉ inner) (hc : '}' ∉ inner)
    (hcomment : commentInner? (inner ++ ['}', '}']) = none) :
    preprocess o (braced inner) = tagOutput o inner := by
  simp [preprocess_eq_flatMap_output, pieces_braced ho hc hcomment, Piece.output]

end Preprocess

/-- Every tag piece of a template is one of its tags. -/
theorem exists_mem_tags_of_mem_pieces {source inner : Text}
    (h : Piece.tag inner ∈ pieces source) : ∃ t ∈ tags source, t.inner = inner := by
  have hfrom : ∀ (ps : List Piece) (p : Position), Piece.tag inner ∈ ps →
      ∃ t ∈ tagsFrom p ps, t.inner = inner := by
    intro ps
    induction ps with
    | nil => simp
    | cons piece ps ih =>
        intro p hmem
        cases piece with
        | plain c => exact ih _ (by simpa using hmem)
        | tag i =>
            obtain heq | hmem := List.mem_cons.1 hmem
            · exact ⟨⟨i, p⟩, by simp [tagsFrom], (Piece.tag.inj heq).symm⟩
            · obtain ⟨t, ht, hinner⟩ := ih (p.advance (braced i)) hmem
              exact ⟨t, List.mem_cons_of_mem _ ht, hinner⟩
  rw [tags_eq_tagsFrom]
  exact hfrom _ _ h

theorem mem_pieces_of_mem_tags {source : Text} {t : Tag} (h : t ∈ tags source) :
    Piece.tag t.inner ∈ pieces source := by
  have hfrom : ∀ (ps : List Piece) (p : Position), t ∈ tagsFrom p ps → Piece.tag t.inner ∈ ps := by
    intro ps
    induction ps with
    | nil => simp [tagsFrom]
    | cons piece ps ih =>
        intro p hmem
        cases piece with
        | plain c => exact List.mem_cons_of_mem _ (ih _ hmem)
        | tag i =>
            obtain rfl | hmem := List.mem_cons.1 hmem
            · exact List.mem_cons_self
            · exact List.mem_cons_of_mem _ (ih _ hmem)
  rw [tags_eq_tagsFrom] at h
  exact hfrom _ _ h

/-- Every tag piece of a template was read at the front of some text, and the braces left over
before it were taken away. -/
theorem exists_tagInner?_of_mem_pieces {w inner : Text} (h : Piece.tag inner ∈ pieces w) :
    ∃ cs found rest, tagInner? cs = some (found, rest) ∧ inner = found.dropWhile (· == '{') := by
  induction w using pieces.induct with
  | case1 => simp [pieces] at h
  | case2 c cs found rest htag ih =>
      rw [pieces_of_tagInner?_eq_some htag, List.mem_append, List.mem_cons] at h
      obtain h | h | h := h
      · simp at h
      · exact ⟨c :: cs, found, rest, htag, Piece.tag.inj h⟩
      · exact ih h
  | case3 c cs htag ih =>
      rw [pieces_cons_of_tagInner?_eq_none htag, List.mem_cons] at h
      obtain h | h := h
      · simp at h
      · exact ih h

end MustachePath
