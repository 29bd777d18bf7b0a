import MustachePath.Proofs.ReplacementBraces

/-!
# Tags of a preprocessed template

The preprocessed template has the tags of the template one for one, each as written or as rewritten,
as long as no replacement disturbs the scan (`full_tags_preprocess`). A replacement may do so at its
own ends: a brace there joins the braces around the replacement, and two dashes at the end close a
block comment that the template leaves open (`not_full_tags_preprocess`).
-/

namespace MustachePath

variable {o : Options}

/-- Whether the output of a tag is found again as a tag and closes no block comment but those that
the tag itself would close. -/
def Undisturbing (o : Options) (inner : Text) : Prop :=
  tagOutput o inner = braced inner ∨
    ∃ new, tagOutput o inner = braced new ∧ Sealed new ∧ (Dashed new → Dashed inner)

theorem Undisturbing.tidy {inner : Text} (h : Undisturbing o inner) : Tidy o inner := by
  obtain h | ⟨new, h, hsealed, -⟩ := h
  · exact .inl h
  · exact .inr ⟨new, h, hsealed.ne_nil, hsealed.lone⟩

theorem not_newClosing {w r : Text} (hs : EachTag (Undisturbing o) w) : ¬ NewClosing o w r := by
  rintro ⟨hmem, hout, hnew, hinner, -, -⟩
  obtain h | ⟨new, h, -, hdashed⟩ := hs _ hmem
  · rw [hout, braced_inj] at h
    exact hinner (h ▸ hnew)
  · rw [hout, braced_inj] at h
    exact hinner (hdashed (h ▸ hnew))

/-- What becomes of a piece in the preprocessed template. -/
inductive Becomes (o : Options) : Piece → Piece → Prop
  | plain (c : Char) : Becomes o (.plain c) (.plain c)
  | tag {inner new : Text} (h : tagOutput o inner = braced new) : Becomes o (.tag inner) (.tag new)

theorem forall₂_becomes_plain (cs : Text) :
    List.Forall₂ (Becomes o) (cs.map .plain) (cs.map .plain) := by
  induction cs with
  | nil => exact .nil
  | cons c cs ih => exact .cons (.plain c) ih

/-- The output of the tag at the front is found as a tag at the front of the output. -/
theorem tagInner?_preprocess {cs inner rest : Text} (hs : EachTag (Undisturbing o) cs)
    (h : tagInner? cs = some (inner, rest)) :
    ∃ inner', tagInner? (preprocess o cs) = some (inner', preprocess o rest) ∧
      inner'.takeWhile (· == '{') = inner.takeWhile (· == '{') ∧
      tagOutput o (inner.dropWhile (· == '{')) = braced (inner'.dropWhile (· == '{')) := by
  have hrest := hs.of_resumes (.after_tag h)
  have hpre := preprocess_of_tagInner?_eq_some (o := o) h
  by_cases hsame : tagOutput o (inner.dropWhile (· == '{')) = braced (inner.dropWhile (· == '{'))
  · rw [hsame, takeWhile_brace_append_braced] at hpre
    obtain htag | ⟨j, r, -, hnew⟩ :=
      tagInner?_after_unchanged (hrest.imp fun _ => Undisturbing.tidy) h
    · exact ⟨inner, by rw [hpre, htag], rfl, hsame⟩
    · exact absurd hnew (not_newClosing hrest)
  · obtain heq | ⟨new, hnew, hsealed, -⟩ := hs _ (tag_mem_pieces h)
    · exact absurd heq hsame
    · obtain ⟨htag, htake, hdrop⟩ :=
        tagInner?_of_sealed (takeWhile_brace_of_changed h hsame).2 hsealed (preprocess o rest)
      exact ⟨_, by rw [hpre, hnew, htag], htake, by rw [hnew, hdrop]⟩

/-- Where no output disturbs the scan, the pieces of the output are those of the template. -/
theorem forall₂_pieces_preprocess {w : Text} (hs : EachTag (Undisturbing o) w) :
    List.Forall₂ (Becomes o) (pieces w) (pieces (preprocess o w)) := by
  induction w using pieces.induct with
  | case1 =>
      rw [preprocess_nil, pieces]
      exact .nil
  | case2 c cs inner rest h ih =>
      obtain ⟨inner', h', htake, hdrop⟩ := tagInner?_preprocess hs h
      rw [pieces_of_tagInner?_eq_some h, pieces_of_tagInner?_eq_some h', htake]
      exact List.rel_append (forall₂_becomes_plain _)
        (.cons (.tag hdrop) (ih (hs.of_resumes (.after_tag h))))
  | case3 c cs h ih =>
      have hcs := hs.of_resumes (.after_plain h)
      rw [preprocess_cons_of_tagInner?_eq_none h, pieces_cons_of_tagInner?_eq_none h]
      obtain h' | ⟨v, j, r, -, -, -, hnew⟩ :=
        tagInner?_after_plain (hcs.imp fun _ => Undisturbing.tidy) h
      · rw [pieces_cons_of_tagInner?_eq_none h']
        exact .cons (.plain c) (ih hcs)
      · exact absurd hnew (not_newClosing hcs)

/-- The tags among such pieces are the outputs, wherever the pieces begin. -/
theorem map_full_tagsFrom {ps qs : List Piece} (h : List.Forall₂ (Becomes o) ps qs)
    (p q : Position) : (tagsFrom q qs).map Tag.full = (tagsFrom p ps).map (Tag.output o) := by
  induction h generalizing p q with
  | nil => rfl
  | cons hpiece _ ih =>
      cases hpiece with
      | plain c => exact ih _ _
      | tag hout =>
          rw [tagsFrom, tagsFrom, List.map_cons, List.map_cons, Tag.output_mk, hout,
            ih (p.advance (braced _))]
          rfl

/-- The inner text of a tag is that of a block comment, or that of a plain tag after the braces left
over before it. -/
theorem opensComment_or_loneBraces {w inner : Text} (h : Piece.tag inner ∈ pieces w)
    (hfront : inner.head? ≠ some '}') : OpensComment inner ∨ LoneBraces inner := by
  obtain ⟨cs, found, rest, htag, rfl⟩ := exists_tagInner?_of_mem_pieces h
  obtain hcomment | ⟨-, hplain⟩ := comment_or_plain htag
  · have hopen := opensComment_of_commentInner? hcomment
    rw [(takeWhile_eq_nil_of_opensComment hopen).2]
    exact .inl hopen
  · have hlone := (loneBraces_of_plainInner? hplain).1
    exact .inr (hlone.of_isInfix (List.dropWhile_suffix _).isInfix hfront)

instance (x : Text) : Decidable (Dashed x) := inferInstanceAs (Decidable (_ ∨ _))

/-- Whether a replacement, taken without its braces, leaves the scan of the text around it as it
was. No brace stands at its ends, and it does not end with the dashes of a block comment, unless the
tag does. -/
structure Seamless (inner new : Text) : Prop where
  front : inner.head? ≠ some '}'
  first : new.head? ≠ some '{'
  last : new.getLast? ≠ some '{'
  dashes : Dashed new → Dashed inner

theorem Decision.eq_rewrite_of_replacement {d : Decision} {text : Text}
    (h : d.replacement = some text) : d = .rewrite text := by
  cases d with
  | rewrite new => rw [Option.some.inj h]
  | control => simp [replacement] at h
  | leave reason => simp [replacement] at h
  | invalid reason => simp [replacement] at h

/-- A seamless replacement is one complete tag. -/
theorem sealed_of_seamless (ho : o.isValid = true) {source new : Text} {t : Tag}
    (ht : t ∈ tags source) (hnew : t.decision o = .rewrite (braced new))
    (h : Seamless t.inner new) : Sealed new := by
  obtain hcomment | hlone := opensComment_or_loneBraces (mem_pieces_of_mem_tags ht) h.front
  · have hcontrol := (rewritten_of_ofBody_eq_rewrite hnew).1
    rw [Tag.body, isControl_of_opensComment hcomment] at hcontrol
    simp at hcontrol
  · exact sealed_of_rewrite ho hlone hnew h.first h.last

/-- Where all replacements are seamless, no output disturbs the scan. -/
theorem undisturbing_of_seamless (ho : o.isValid = true) {source : Text}
    (h : ∀ t ∈ tags source, ∀ new, t.decision o = .rewrite (braced new) → Seamless t.inner new) :
    EachTag (Undisturbing o) source := by
  intro inner hmem
  obtain ⟨t, ht, rfl⟩ := exists_mem_tags_of_mem_pieces hmem
  obtain ⟨new, hout⟩ := exists_tagOutput_eq_braced o t.inner
  cases hreplacement : (t.decision o).replacement with
  | none => exact .inl (tagOutput_eq_braced hreplacement)
  | some text =>
      have hdecision : t.decision o = .rewrite (braced new) := by
        have htext : tagOutput o t.inner = text := by
          rw [tagOutput, ← Tag.body, ← Tag.decision, Decision.output_eq_getD, hreplacement]
          rfl
        rw [← hout, htext]
        exact Decision.eq_rewrite_of_replacement hreplacement
      have hseamless := h t ht new hdecision
      exact .inr ⟨new, hout, sealed_of_seamless ho ht hdecision hseamless, hseamless.dashes⟩

/-- The preprocessed template has the tags of the template one for one, each as written or as
rewritten, if all replacements are seamless. Every replacement then is one complete tag. -/
theorem full_tags_preprocess (o : Options) (ho : o.isValid = true) (source : Text)
    (h : ∀ t ∈ tags source, ∀ new, t.decision o = .rewrite (braced new) → Seamless t.inner new) :
    (tags (preprocess o source)).map Tag.full = (tags source).map (Tag.output o) ∧
      ∀ t ∈ tags source, ∀ text, t.decision o = .rewrite text →
        (tags text).map Tag.full = [text] := by
  have hfull := map_full_tagsFrom (forall₂_pieces_preprocess (undisturbing_of_seamless ho h))
    .start .start
  rw [← tags_eq_tagsFrom, ← tags_eq_tagsFrom] at hfull
  refine ⟨hfull, ?_⟩
  intro t ht text htext
  obtain ⟨new, rfl⟩ := (rewritten_of_ofBody_eq_rewrite htext).2.exists_braced
  obtain ⟨htag, htake, hdrop⟩ :=
    tagInner?_of_sealed (.inl rfl) (sealed_of_seamless ho ht htext (h t ht new htext)) []
  rw [List.nil_append, List.append_nil, List.nil_append] at htag
  rw [List.nil_append] at htake hdrop
  rw [tags_eq_tagsFrom, pieces_of_tagInner?_eq_some htag, htake, hdrop, pieces]
  rfl

/-- A comment with a tag in it, and a brace before a tag with a brace in a quoted value. -/
theorem full_tags_preprocess_braces :
    (tags (preprocess Options.default
        (braced ("!-- ".toList ++ braced "q[0]".toList ++ " --".toList) ++
          '{' :: braced "list b[0] t='\x7bx'".toList))).map Tag.full =
      [braced ("!-- ".toList ++ braced "q[0]".toList ++ " --".toList),
        braced "list (convertFromDotNotation this \"b[0]\" t='\x7bx') t='\x7bx'".toList] := by
  have hfull := (full_tags_preprocess Options.default (by decide +kernel)
    (braced ("!-- ".toList ++ braced "q[0]".toList ++ " --".toList) ++
      '{' :: braced "list b[0] t='\x7bx'".toList) ?_).1
  · rw [hfull]
    decide +kernel
  · intro t ht new hnew
    have hinner := List.mem_map_of_mem (f := Tag.inner) ht
    have hinners : (tags (braced ("!-- ".toList ++ braced "q[0]".toList ++ " --".toList) ++
        '{' :: braced "list b[0] t='\x7bx'".toList)).map Tag.inner =
          ["!-- ".toList ++ braced "q[0]".toList ++ " --".toList,
            "list b[0] t='\x7bx'".toList] := by
      decide +kernel
    rw [hinners] at hinner
    simp only [List.mem_cons, List.not_mem_nil, or_false] at hinner
    rw [Tag.decision, Tag.body] at hnew
    obtain hcomment | hcall := hinner
    · have hcontrol : Decision.ofBody Options.default (Text.trim t.inner) = .control := by
        rw [hcomment]
        decide +kernel
      simp [hcontrol] at hnew
    · have hrewrite : Decision.ofBody Options.default (Text.trim t.inner) = .rewrite (braced
          "list (convertFromDotNotation this \"b[0]\" t='\x7bx') t='\x7bx'".toList) := by
        rw [hcall]
        decide +kernel
      obtain rfl := braced_inj.1 (Decision.rewrite.inj (hrewrite.symm.trans hnew))
      rw [hcall]
      exact ⟨by decide, by decide, by decide, by decide⟩

/-- A replacement that ends with a brace is no tag at all: the brace takes the first brace of the
closing pair. -/
theorem not_full_tags_preprocess :
    ¬ ∀ (o : Options) (source : Text), o.isValid = true →
      (tags (preprocess o source)).length = (tags source).length := by
  intro h
  have hlength := h Options.default (braced "h p[0] \x7b ".toList) (by decide +kernel)
  revert hlength
  decide +kernel

end MustachePath
