import MustachePath.Proofs.Respacing

/-!
# Division of a text into lexemes

Tokenizing divides a text into lexemes with white space around them (`exists_chunks_tokenize`). A
lexeme has white space at neither end, and it is its token as written but for the white space around
the equals sign of a pair.
-/

namespace MustachePath

/-- Whether a text is not empty and has white space at neither end. -/
structure Text.Solid (t : Text) : Prop where
  ne_nil : t ≠ []
  first : Text.Stops isBlank t
  last : ∀ c ∈ t.getLast?, isBlank c = false

open Token

/-- The lexeme of a token in a text, and the white space before it. -/
structure Chunk where
  gap : Text
  token : Token
  lexeme : Text
  blank : gap.all isBlank = true
  isLexeme : Lexeme token lexeme
  solid : lexeme.Solid

/-- A chunk as it stands in its text. -/
def Chunk.text (k : Chunk) : Text := k.gap ++ k.lexeme

/-- The last character of a token is not white space. -/
theorem nonblank_getLast?_of_read? {cs r : Text} {t : Token} (h : read? cs = some (t, r)) :
    ∀ c ∈ t.text.getLast?, isBlank c = false := by
  obtain hclosed | ⟨hnonblank, -⟩ := closesToken_or_breaks_of_read? h
  · exact fun c hc => (hclosed c hc).nonblank
  · exact hnonblank

/-- What is read where white space ends has white space at neither end. -/
theorem exists_solid_of_read? {cs r : Text} {t : Token} (hs : Text.Stops isBlank cs)
    (h : read? cs = some (t, r)) : ∃ l : Text, cs = l ++ r ∧ Lexeme t l ∧ l.Solid := by
  obtain ⟨l, rfl, hlex⟩ := read?_eq_some h
  obtain ⟨c, -, v, -, hcons⟩ := hlex.exists_cons
  refine ⟨l, rfl, hlex, ?_, ?_, ?_⟩
  · rw [hcons]
    exact List.cons_ne_nil c v
  · rw [hcons, List.cons_append] at hs
    rw [hcons]
    exact Text.stops_cons.2 (Text.stops_cons.1 hs)
  · rw [← hlex.getLast?_text]
    exact nonblank_getLast?_of_read? h

theorem exists_chunks_readAll (cs : Text) :
    ∃ (chunks : List Chunk) (tail : Text), cs = chunks.flatMap Chunk.text ++ tail ∧
      tail.all isBlank = true ∧ readAll cs = chunks.map Chunk.token := by
  fun_induction readAll cs with
  | case1 cs t r hread ih =>
      obtain ⟨gap, hgap, hblank⟩ := append_trimStart cs
      obtain ⟨l, hl, hlex, hsolid⟩ := exists_solid_of_read? (Text.stops_dropWhile isBlank cs) hread
      obtain ⟨chunks, tail, rfl, htail, htokens⟩ := ih
      refine ⟨⟨gap, t, l, hblank, hlex, hsolid⟩ :: chunks, tail, ?_, htail, ?_⟩
      · calc cs = gap ++ Text.trimStart cs := hgap
          _ = gap ++ (l ++ (chunks.flatMap Chunk.text ++ tail)) := by rw [← hl]; rfl
          _ = _ := by simp [Chunk.text]
      · rw [List.map_cons, htokens]
  | case2 cs hread =>
      refine ⟨[], cs, rfl, ?_, rfl⟩
      apply all_isBlank_of_tokenize_eq_nil
      rw [tokenize_eq_match, hread]

/-- Tokenizing loses nothing. The text is made of the lexemes of its tokens, in order, with white
space before, between and after them, so that text and tokens are the same but for white space. -/
theorem exists_chunks_tokenize (cs : Text) :
    ∃ (chunks : List Chunk) (tail : Text), cs = chunks.flatMap Chunk.text ++ tail ∧
      tail.all isBlank = true ∧ readAll cs = chunks.map Chunk.token ∧
      tokenize cs = chunks.map (fun k => k.token.text) ∧
      (tokenize cs).flatten.filter (!isBlank ·) = cs.filter (!isBlank ·) := by
  obtain ⟨chunks, tail, htext, htail, htokens⟩ := exists_chunks_readAll cs
  refine ⟨chunks, tail, htext, htail, htokens, ?_, filter_flatten_tokenize cs⟩
  rw [tokenize, htokens, List.map_map]
  rfl

theorem nonblank_getLast?_of_mem_tokenize {cs k : Text} (hk : k ∈ tokenize cs) :
    ∀ c ∈ k.getLast?, isBlank c = false := by
  obtain ⟨chunks, tail, -, -, -, htokens, -⟩ := exists_chunks_tokenize cs
  rw [htokens] at hk
  obtain ⟨chunk, -, rfl⟩ := List.mem_map.1 hk
  rw [chunk.isLexeme.getLast?_text]
  exact chunk.solid.last

/-- A text ends with its last token, but for white space. -/
theorem getLast?_of_tokenize_eq_concat {cs k : Text} {ts : List Text}
    (h : tokenize cs = ts ++ [k]) : k.getLast? = (Text.trimEnd cs).getLast? := by
  have hmem : k ∈ tokenize cs := by simp [h]
  have htrim : Text.trimEnd k = k := Text.trimEnd_eq_self (nonblank_getLast?_of_mem_tokenize hmem)
  have hne : k.filter (!isBlank ·) ≠ [] := by
    intro hnil
    have hlast := Text.getLast?_filter_trimEnd k
    rw [hnil, htrim, List.getLast?_nil] at hlast
    exact ne_nil_of_mem_tokenize hmem (List.getLast?_eq_none_iff.1 hlast.symm)
  calc k.getLast? = (k.filter (!isBlank ·)).getLast? := by rw [Text.getLast?_filter_trimEnd, htrim]
    _ = ((tokenize cs).flatten.filter (!isBlank ·)).getLast? := by
      rw [h, List.flatten_append, List.flatten_singleton, List.filter_append,
        Text.getLast?_append_of_ne_nil hne]
    _ = (cs.filter (!isBlank ·)).getLast? := by rw [filter_flatten_tokenize]
    _ = (Text.trimEnd cs).getLast? := Text.getLast?_filter_trimEnd cs

theorem joinSpaced_ne_nil_of_suffix {cs : Text} {ts : List Text} (h : ts <:+ tokenize cs)
    (hts : ts ≠ []) : Text.joinSpaced ts ≠ [] := by
  cases ts with
  | nil => exact absurd rfl hts
  | cons t ts =>
      have ht : t ≠ [] := ne_nil_of_mem_tokenize (h.subset (by simp))
      rw [Text.joinSpaced_cons]
      exact List.append_ne_nil_of_left_ne_nil ht _

/-- The last tokens of a text, joined, end as the text does. -/
theorem getLast?_joinSpaced_of_suffix {cs : Text} {ts : List Text} (h : ts <:+ tokenize cs)
    (hts : ts ≠ []) : (Text.joinSpaced ts).getLast? = (Text.trimEnd cs).getLast? := by
  obtain hnil | ⟨us, k, rfl⟩ := List.eq_nil_or_concat ts
  · exact absurd hnil hts
  · obtain ⟨vs, hvs⟩ := h
    rw [List.concat_eq_append, ← List.append_assoc] at hvs
    have hk : k ∈ tokenize cs := by simp [← hvs]
    obtain ⟨y, hy⟩ := Text.joinSpaced_concat us k
    rw [List.concat_eq_append, hy, Text.getLast?_append_of_ne_nil (ne_nil_of_mem_tokenize hk)]
    exact getLast?_of_tokenize_eq_concat hvs.symm

end MustachePath
