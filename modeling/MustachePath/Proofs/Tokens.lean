import MustachePath.Proofs.Characters

/-!
# Tokens and the text they stand in

Reading divides a text into white space and lexemes (`tokenize_eq_cons`). A lexeme is its token as
written, but for the white space around the equals sign of a pair. So a token holds only characters
of the text, and no character but white space is lost (`filter_flatten_tokenize`).
-/

namespace MustachePath

/-- A name: name characters, one at least. -/
def IsName (t : Text) : Prop := t ≠ [] ∧ ∀ c ∈ t, isNameChar c = true

instance (t : Text) : Decidable (IsName t) :=
  @instDecidableAnd _ _ _ (List.decidableBAll (fun c => isNameChar c = true) t)

/-- A name as it stands in a tag. -/
structure Name where
  text : Text
  isName : IsName text

/-- Whether a text is empty or begins with white space. -/
abbrev Text.Breaks (cs : Text) : Prop := Text.Stops (fun c => !isBlank c) cs

namespace Token

theorem readWhile?_append {test : Char → Bool} {a rest : Text} (hne : a ≠ [])
    (ha : ∀ c ∈ a, test c = true) (hr : Text.Stops test rest) :
    readWhile? test (a ++ rest) = some (a, rest) := by
  have htake : (a ++ rest).takeWhile test = a := by
    rw [List.takeWhile_append_of_pos ha, Text.takeWhile_eq_nil_of_stops hr, List.append_nil]
  have hdrop : (a ++ rest).dropWhile test = rest := by
    rw [List.dropWhile_append_of_pos ha, Text.dropWhile_eq_self_of_stops hr]
  rw [readWhile?, htake, hdrop, if_neg hne]

theorem readWhile?_eq_none_iff {test : Char → Bool} {cs : Text} :
    readWhile? test cs = none ↔ Text.Stops test cs := by
  cases cs with
  | nil => simp [readWhile?]
  | cons c cs => by_cases hc : test c = true <;> simp [readWhile?, hc]

theorem all_of_readWhile?_eq_some {test : Char → Bool} {cs a r : Text}
    (h : readWhile? test cs = some (a, r)) :
    (∀ c ∈ a, test c = true) ∧ Text.Stops test r := by
  unfold readWhile? at h
  split at h
  · simp at h
  · simp only [Option.some.injEq, Prod.mk.injEq] at h
    obtain ⟨rfl, rfl⟩ := h
    exact ⟨List.all_eq_true.1 List.all_takeWhile, Text.stops_dropWhile test cs⟩

theorem readName?_append {a rest : Text} (ha : IsName a) (hr : Text.Stops isNameChar rest) :
    readName? (a ++ rest) = some (a, rest) :=
  readWhile?_append ha.1 ha.2 hr

theorem isName_of_readName?_eq_some {cs a r : Text} (h : readName? cs = some (a, r)) :
    IsName a :=
  ⟨(readWhile?_eq_some h).2, (all_of_readWhile?_eq_some h).1⟩

theorem readUntil?_append {o c : Char} {a : Text} (hc : c ∉ a) (ho : o ∉ a) (rest : Text) :
    readUntil? o c (a ++ c :: rest) = some (a ++ [c], rest) := by
  induction a with
  | nil => simp [readUntil?]
  | cons d a ih =>
      simp only [List.mem_cons, not_or] at hc ho
      rw [List.cons_append, readUntil?, if_neg (Ne.symm hc.1), if_neg (Ne.symm ho.1),
        ih hc.2 ho.2]
      rfl

/-- An opening character before the first closing one leaves the part open. -/
theorem readUntil?_eq_none {o c : Char} (hne : o ≠ c) {a : Text} (hc : c ∉ a) (rest : Text) :
    readUntil? o c (a ++ o :: rest) = none := by
  induction a with
  | nil => simp [readUntil?, hne]
  | cons d a ih =>
      simp only [List.mem_cons, not_or] at hc
      rw [List.cons_append, readUntil?, if_neg (Ne.symm hc.1)]
      split
      · rfl
      · rw [ih hc.2]
        rfl

theorem readGroup?_append {a : Text} (hc : ')' ∉ a) (ho : '(' ∉ a) (rest : Text) :
    readGroup? ('(' :: a ++ ')' :: rest) = some ('(' :: a ++ [')'], rest) := by
  rw [List.cons_append, readGroup?, readUntil?_append hc ho]
  rfl

theorem readBracket?_append {a : Text} (hc : ']' ∉ a) (ho : '[' ∉ a) (rest : Text) :
    readBracket? ('[' :: a ++ ']' :: rest) = some ('[' :: a ++ [']'], rest) := by
  rw [List.cons_append, readBracket?, readUntil?_append hc ho]
  rfl

theorem getLast?_of_readUntil?_eq_some {o c : Char} {cs a r : Text}
    (h : readUntil? o c cs = some (a, r)) : a.getLast? = some c := by
  induction cs generalizing a with
  | nil => simp [readUntil?] at h
  | cons d cs ih =>
      simp only [readUntil?] at h
      split at h
      · simp only [Option.some.injEq, Prod.mk.injEq] at h
        rename_i hdc
        simp [← h.1, hdc]
      · split at h
        · simp at h
        · simp only [Option.map_eq_some_iff, before, Prod.mk.injEq, Prod.exists] at h
          obtain ⟨b, s, hb, rfl, rfl⟩ := h
          simp [List.getLast?_cons, ih hb]

theorem getLast?_of_readQuoteEnd?_eq_some {q : Char} {cs a r : Text}
    (h : readQuoteEnd? q cs = some (a, r)) : a.getLast? = some q := by
  fun_induction readQuoteEnd? q cs generalizing a with
  | case1 => simp at h
  | case2 => simp at h
  | case3 c cs hc ih =>
      simp only [Option.map_eq_some_iff, before, Prod.mk.injEq, Prod.exists] at h
      obtain ⟨b, s, hb, rfl, rfl⟩ := h
      simp [List.getLast?_cons, ih hb]
  | case4 =>
      simp only [Option.some.injEq, Prod.mk.injEq] at h
      simp [← h.1]
  | case5 => simp at h
  | case6 c cs _ _ _ ih =>
      simp only [Option.map_eq_some_iff, before, Prod.mk.injEq, Prod.exists] at h
      obtain ⟨b, s, hb, rfl, rfl⟩ := h
      simp [List.getLast?_cons, ih hb]

/-- Whether a text ends with a quote or a closing parenthesis. -/
def EndsClosed (t : Text) : Prop := ∃ c ∈ t.getLast?, c = '"' ∨ c = '\'' ∨ c = ')'

theorem endsClosed_of_readQuoted? {cs a r : Text} (h : readQuoted? cs = some (a, r)) :
    EndsClosed a := by
  unfold readQuoted? at h
  split at h
  · simp only [Option.map_eq_some_iff, before, Prod.mk.injEq, Prod.exists] at h
    obtain ⟨b, s, hb, rfl, -⟩ := h
    exact ⟨'"', by simp [List.getLast?_cons, getLast?_of_readQuoteEnd?_eq_some hb], Or.inl rfl⟩
  · simp only [Option.map_eq_some_iff, before, Prod.mk.injEq, Prod.exists] at h
    obtain ⟨b, s, hb, rfl, -⟩ := h
    exact ⟨'\'', by simp [List.getLast?_cons, getLast?_of_readQuoteEnd?_eq_some hb],
      Or.inr (Or.inl rfl)⟩
  · simp at h

theorem endsClosed_of_readGroup? {cs a r : Text} (h : readGroup? cs = some (a, r)) :
    EndsClosed a := by
  unfold readGroup? at h
  split at h
  · simp only [Option.map_eq_some_iff, before, Prod.mk.injEq, Prod.exists] at h
    obtain ⟨b, s, hb, rfl, -⟩ := h
    exact ⟨')', by simp [List.getLast?_cons, getLast?_of_readUntil?_eq_some hb],
      Or.inr (Or.inr rfl)⟩
  · simp at h

theorem readValue?_endsClosed_or {cs v r : Text} (h : readValue? cs = some (v, r)) :
    EndsClosed v ∨ ∀ c ∈ v, isBlank c = false := by
  simp only [readValue?, Option.or_eq_some_iff] at h
  obtain h | ⟨-, h | ⟨-, h⟩⟩ := h
  · exact Or.inl (endsClosed_of_readQuoted? h)
  · exact Or.inl (endsClosed_of_readGroup? h)
  · right
    intro c hc
    simpa using (all_of_readWhile?_eq_some h).1 c hc

/-- How a token stands in the text it is read from. -/
inductive Lexeme : Token → Text → Prop
  | pair {key value w w' : Text} (hkey : IsName key) (hw : w.all isBlank = true)
      (hw' : w'.all isBlank = true) (hne : value ≠ [])
      (hvalue : EndsClosed value ∨ ∀ c ∈ value, isBlank c = false) :
      Lexeme (.pair key value) (key ++ w ++ '=' :: w' ++ value)
  | other {t : Token} (hne : t.text ≠ []) (hkey : pairKey? t.text = none) : Lexeme t t.text

theorem pairKey?_append {key : Text} (hkey : IsName key) (value : Text) :
    pairKey? (key ++ '=' :: value) = some key := by
  have hr : Text.Stops isNameChar ('=' :: value) := Text.stops_cons.2 (by decide)
  rw [pairKey?, readName?_append hkey hr]
  rfl

theorem pairKey?_eq_none_of_stops {cs : Text} (h : Text.Stops isNameChar cs) :
    pairKey? cs = none := by
  rw [pairKey?, readName?, readWhile?_eq_none_iff.2 h]

theorem pairKey?_name_append {name rest : Text} (hname : IsName name)
    (hr : Text.Stops isNameChar rest) (he : rest.head? ≠ some '=') :
    pairKey? (name ++ rest) = none := by
  rw [pairKey?, readName?_append hname hr]
  split
  · rename_i heq
    simp only [Option.some.injEq, Prod.mk.injEq] at heq
    simp [heq.2] at he
  · rfl

theorem readName?_eq_none_iff {cs : Text} :
    readName? cs = none ↔ Text.Stops isNameChar cs :=
  readWhile?_eq_none_iff

theorem head?_of_readBracket?_eq_some {cs a r : Text} (h : readBracket? cs = some (a, r)) :
    a.head? = some '[' := by
  unfold readBracket? at h
  split at h
  · simp only [Option.map_eq_some_iff, before, Prod.mk.injEq, Prod.exists] at h
    obtain ⟨b, s, hb, rfl, -⟩ := h
    rfl
  · simp at h

theorem head?_of_readStep?_eq_some {cs a r : Text} (h : readStep? cs = some (a, r)) :
    a.head? = some '.' ∨ a.head? = some '[' := by
  unfold readStep? at h
  split at h
  · simp only [Option.map_eq_some_iff, before, Prod.mk.injEq, Prod.exists] at h
    obtain ⟨b, s, -, rfl, -⟩ := h
    exact Or.inl rfl
  · exact Or.inr (head?_of_readBracket?_eq_some h)

/-- The further steps of a path begin with a dot or a bracket, if there are any. -/
theorem head?_readSteps (cs : Text) :
    ∀ c ∈ (readSteps cs).1.head?, c = '.' ∨ c = '[' := by
  rw [readSteps]
  split
  · rename_i a r h
    intro c hc
    simp only [before, List.head?_append] at hc
    obtain hhead | hhead := head?_of_readStep?_eq_some h
    · left
      simpa [hhead, eq_comm] using hc
    · right
      simpa [hhead, eq_comm] using hc
  · simp

theorem pairKey?_eq_none_of_readPath? {cs a r : Text} (h : readPath? cs = some (a, r)) :
    pairKey? a = none := by
  simp only [readPath?, Option.map_eq_some_iff, Option.or_eq_some_iff, before, Prod.mk.injEq,
    Prod.exists] at h
  obtain ⟨b, s, hb, rfl, -⟩ := h
  have hsteps := head?_readSteps s
  obtain hb | ⟨-, hb⟩ := hb
  · apply pairKey?_name_append (isName_of_readName?_eq_some hb)
    · intro c hc
      obtain rfl | rfl := hsteps c hc <;> decide
    · intro he
      obtain h | h := hsteps '=' he <;> simp at h
  · apply pairKey?_eq_none_of_stops
    have hhead := head?_of_readBracket?_eq_some hb
    cases b with
    | nil => simp at hhead
    | cons d b =>
        simp only [List.head?_cons, Option.some.injEq] at hhead
        simp only [hhead, List.cons_append, Text.stops_cons]
        decide

theorem exists_lexeme_of_readPair? {cs r : Text} {t : Token} (h : readPair? cs = some (t, r)) :
    ∃ l, cs = l ++ r ∧ Lexeme t l := by
  unfold readPair? at h
  split at h
  · simp at h
  · rename_i key s hk
    split at h
    · rename_i s' hs
      simp only [Option.map_eq_some_iff, Prod.mk.injEq, Prod.exists] at h
      obtain ⟨v, r', hv, rfl, rfl⟩ := h
      obtain ⟨w, hw, hwb⟩ := append_trimStart s
      obtain ⟨w', hw', hwb'⟩ := append_trimStart s'
      obtain ⟨hd, hvne⟩ := readValue?_eq_some hv
      refine ⟨key ++ w ++ '=' :: w' ++ v, ?_, Lexeme.pair (isName_of_readName?_eq_some hk)
        hwb hwb' hvne (readValue?_endsClosed_or hv)⟩
      rw [hs] at hw
      rw [hd] at hw'
      rw [(readWhile?_eq_some hk).1, hw, hw']
      simp
    · simp at h

theorem stops_of_readGroup? {cs a r : Text} (h : readGroup? cs = some (a, r)) :
    Text.Stops isNameChar a := by
  unfold readGroup? at h
  split at h
  · simp only [Option.map_eq_some_iff, before, Prod.mk.injEq, Prod.exists] at h
    obtain ⟨b, s, -, rfl, -⟩ := h
    exact Text.stops_cons.2 (by decide)
  · simp at h

theorem stops_of_readQuoted? {cs a r : Text} (h : readQuoted? cs = some (a, r)) :
    Text.Stops isNameChar a := by
  unfold readQuoted? at h
  split at h
  · simp only [Option.map_eq_some_iff, before, Prod.mk.injEq, Prod.exists] at h
    obtain ⟨b, s, -, rfl, -⟩ := h
    exact Text.stops_cons.2 (by decide)
  · simp only [Option.map_eq_some_iff, before, Prod.mk.injEq, Prod.exists] at h
    obtain ⟨b, s, -, rfl, -⟩ := h
    exact Text.stops_cons.2 (by decide)
  · simp at h

/-- What is read at the front of a text stands there as a lexeme. -/
theorem read?_eq_some {cs r : Text} {t : Token} (h : read? cs = some (t, r)) :
    ∃ l, cs = l ++ r ∧ Lexeme t l := by
  simp only [read?, Option.or_eq_some_iff, Option.map_eq_some_iff, Prod.mk.injEq,
    Prod.exists] at h
  obtain h | ⟨-, h | ⟨hpath, h | ⟨-, h | ⟨-, h⟩⟩⟩⟩ := h
  · exact exists_lexeme_of_readPair? h
  · obtain ⟨a, s, ha, rfl, rfl⟩ := h
    obtain ⟨hcs, hne⟩ := readPath?_eq_some ha
    exact ⟨a, hcs, Lexeme.other hne (pairKey?_eq_none_of_readPath? ha)⟩
  · obtain ⟨a, s, ha, rfl, rfl⟩ := h
    obtain ⟨hcs, hne⟩ := readGroup?_eq_some ha
    exact ⟨a, hcs, Lexeme.other hne (pairKey?_eq_none_of_stops (stops_of_readGroup? ha))⟩
  · obtain ⟨a, s, ha, rfl, rfl⟩ := h
    obtain ⟨hcs, hne⟩ := readQuoted?_eq_some ha
    exact ⟨a, hcs, Lexeme.other hne (pairKey?_eq_none_of_stops (stops_of_readQuoted? ha))⟩
  · obtain ⟨a, s, ha, rfl, rfl⟩ := h
    obtain ⟨hcs, hne⟩ := readWhile?_eq_some ha
    refine ⟨a, hcs, Lexeme.other hne (pairKey?_eq_none_of_stops ?_)⟩
    simp only [readPath?, Option.map_eq_none_iff, Option.or_eq_none_iff,
      readName?_eq_none_iff] at hpath
    cases a with
    | nil => exact absurd rfl hne
    | cons d a =>
        rw [hcs] at hpath
        exact Text.stops_cons.2 (Text.stops_cons.1 hpath.1)

/-- A token can be read wherever a character other than white space stands. -/
theorem read?_ne_none {c : Char} (hc : isBlank c = false) (cs : Text) :
    read? (c :: cs) ≠ none := by
  have hrun : readRun? (c :: cs) ≠ none := by
    intro h
    have hstop := Text.stops_cons.1 (readWhile?_eq_none_iff.1 h)
    simp [hc] at hstop
  intro h
  simp only [read?, Option.or_eq_none_iff, Option.map_eq_none_iff] at h
  exact hrun h.2.2.2.2

end Token

open Token

/-- How the first token of a text is read. -/
theorem exists_read?_of_tokenize_eq_cons {cs x : Text} {xs : List Text}
    (h : tokenize cs = x :: xs) :
    ∃ (w s r : Text) (t : Token), cs = w ++ s ∧ w.all isBlank = true ∧ Text.Stops isBlank s ∧
      read? s = some (t, r) ∧ x = t.text ∧ tokenize r = xs := by
  rw [tokenize, readAll] at h
  split at h
  · rename_i t r hread
    simp only [List.map_cons, List.cons.injEq] at h
    obtain ⟨rfl, rfl⟩ := h
    obtain ⟨w, hw, hblank⟩ := append_trimStart cs
    exact ⟨w, _, r, t, hw, hblank, Text.stops_dropWhile isBlank cs, hread, rfl, rfl⟩
  · simp at h

/-- The first token of a text, the lexeme it is read from, and the text that the other tokens are
read from. -/
theorem tokenize_eq_cons {cs x : Text} {xs : List Text} (h : tokenize cs = x :: xs) :
    ∃ (w l r : Text) (t : Token), cs = w ++ (l ++ r) ∧ w.all isBlank = true ∧ Lexeme t l ∧
      x = t.text ∧ tokenize r = xs := by
  obtain ⟨w, s, r, t, rfl, hw, -, hread, hx, hr⟩ := exists_read?_of_tokenize_eq_cons h
  obtain ⟨l, rfl, hlex⟩ := read?_eq_some hread
  exact ⟨w, l, r, t, rfl, hw, hlex, hx, hr⟩

/-- The last tokens of a text are the tokens of an end of the text. -/
theorem exists_tokenize_eq_of_suffix {cs : Text} {ts : List Text} (h : ts <:+ tokenize cs) :
    ∃ r, r <:+ cs ∧ tokenize r = ts := by
  generalize hxs : tokenize cs = xs at h
  induction xs generalizing cs with
  | nil => exact ⟨cs, List.suffix_refl cs, hxs.trans (List.suffix_nil.1 h).symm⟩
  | cons x xs ih =>
      obtain rfl | h := List.suffix_cons_iff.1 h
      · exact ⟨cs, List.suffix_refl cs, hxs⟩
      · obtain ⟨w, l, r, t, rfl, -, -, -, hr⟩ := tokenize_eq_cons hxs
        obtain ⟨s, hs, hts⟩ := ih hr h
        exact ⟨s, hs.trans ((List.suffix_append l r).trans (List.suffix_append w _)), hts⟩

/-- Only white space has no tokens. -/
theorem all_isBlank_of_tokenize_eq_nil {cs : Text} (h : tokenize cs = []) :
    cs.all isBlank = true := by
  rw [tokenize, readAll] at h
  split at h
  · simp at h
  · rename_i hread
    obtain ⟨w, hw, hblank⟩ := append_trimStart cs
    cases htrim : Text.trimStart cs with
    | nil => rwa [hw, htrim, List.append_nil]
    | cons c r =>
        have hc : isBlank c = false := by
          have hstop := Text.stops_dropWhile isBlank cs
          change Text.Stops isBlank (Text.trimStart cs) at hstop
          rwa [htrim, Text.stops_cons] at hstop
        rw [htrim] at hread
        exact absurd hread (read?_ne_none hc r)

namespace Token

/-- A token holds only characters of its lexeme. -/
theorem Lexeme.subset {t : Token} {l : Text} (h : Lexeme t l) : ∀ c ∈ t.text, c ∈ l := by
  cases h with
  | pair hkey hw hw' hne hvalue =>
      intro c hc
      simp only [text, List.mem_append, List.mem_cons] at hc ⊢
      obtain hc | hc | hc := hc
      · exact Or.inl (Or.inl (Or.inl hc))
      · exact Or.inl (Or.inr (Or.inl hc))
      · exact Or.inr hc
  | other hne hkey => exact fun c hc => hc

/-- A token begins like its lexeme. -/
theorem Lexeme.exists_cons {t : Token} {l : Text} (h : Lexeme t l) :
    ∃ c u v, t.text = c :: u ∧ l = c :: v := by
  cases h with
  | pair hkey hw hw' hne hvalue =>
      obtain ⟨c, key, rfl⟩ := List.exists_cons_of_ne_nil hkey.1
      exact ⟨c, _, _, rfl, rfl⟩
  | other hne hkey =>
      obtain ⟨c, u, hu⟩ := List.exists_cons_of_ne_nil hne
      exact ⟨c, u, u, hu, hu⟩

/-- A token ends like its lexeme. -/
theorem Lexeme.getLast?_text {t : Token} {l : Text} (h : Lexeme t l) :
    t.text.getLast? = l.getLast? := by
  cases h with
  | pair hkey hw hw' hne hvalue =>
      rw [text, ← List.singleton_append, ← List.append_assoc, Text.getLast?_append_of_ne_nil hne,
        Text.getLast?_append_of_ne_nil hne]
  | other hne hkey => rfl

/-- A token loses only white space of its lexeme. -/
theorem Lexeme.filter_text {t : Token} {l : Text} (h : Lexeme t l) :
    t.text.filter (!isBlank ·) = l.filter (!isBlank ·) := by
  cases h with
  | pair hkey hw hw' hne hvalue =>
      have heq : isBlank '=' = false := rfl
      simp [text, Text.filter_of_blank hw, Text.filter_of_blank hw', heq]
  | other hne hkey => rfl

end Token

theorem ne_nil_of_mem_tokenize {cs x : Text} (hx : x ∈ tokenize cs) : x ≠ [] := by
  generalize hxs : tokenize cs = xs at hx
  induction xs generalizing cs with
  | nil => simp at hx
  | cons y ys ih =>
      obtain ⟨w, l, r, t, rfl, -, hlex, rfl, hr⟩ := tokenize_eq_cons hxs
      obtain rfl | hx := List.mem_cons.1 hx
      · obtain ⟨c, u, v, htext, -⟩ := hlex.exists_cons
        rw [htext]
        exact List.cons_ne_nil _ _
      · exact ih hr hx

/-- The first token begins where a text without white space at its front does. -/
theorem head?_of_tokenize_eq_cons {cs x : Text} {xs : List Text} (h : tokenize cs = x :: xs)
    (hs : Text.Stops isBlank cs) : x.head? = cs.head? := by
  obtain ⟨w, l, r, t, rfl, hw, hlex, rfl, -⟩ := tokenize_eq_cons h
  obtain ⟨c, u, v, htext, rfl⟩ := hlex.exists_cons
  cases w with
  | nil => rw [htext]; rfl
  | cons d w =>
      have hd : isBlank d = false := Text.stops_cons.1 hs
      simp [hd] at hw

theorem mem_of_mem_tokenize {cs x : Text} {c : Char} (hx : x ∈ tokenize cs) (hc : c ∈ x) :
    c ∈ cs := by
  generalize hxs : tokenize cs = xs at hx
  induction xs generalizing cs with
  | nil => simp at hx
  | cons y ys ih =>
      obtain ⟨w, l, r, t, rfl, -, hlex, rfl, hr⟩ := tokenize_eq_cons hxs
      obtain rfl | hx := List.mem_cons.1 hx
      · simp [hlex.subset c hc]
      · simp [ih hr hx]

/-- The tokens of a text hold all its characters but white space, in order. -/
theorem filter_flatten_tokenize (cs : Text) :
    (tokenize cs).flatten.filter (!isBlank ·) = cs.filter (!isBlank ·) := by
  generalize hxs : tokenize cs = xs
  induction xs generalizing cs with
  | nil =>
      rw [List.flatten_nil, List.filter_nil,
        Text.filter_of_blank (all_isBlank_of_tokenize_eq_nil hxs)]
  | cons y ys ih =>
      obtain ⟨w, l, r, t, rfl, hw, hlex, rfl, hr⟩ := tokenize_eq_cons hxs
      simp only [List.flatten_cons, List.filter_append, Text.filter_of_blank hw, List.nil_append,
        ih r hr, hlex.filter_text]

/-- White space stands in a pair only if a literal or a group is the pair's value. -/
theorem endsClosed_or_of_isPairShaped {cs x : Text} (hx : x ∈ tokenize cs)
    (hpair : isPairShaped x = true) : EndsClosed x ∨ ∀ c ∈ x, isBlank c = false := by
  generalize hxs : tokenize cs = xs at hx
  induction xs generalizing cs with
  | nil => simp at hx
  | cons y ys ih =>
      obtain ⟨w, l, r, t, rfl, -, hlex, rfl, hr⟩ := tokenize_eq_cons hxs
      obtain rfl | hx := List.mem_cons.1 hx
      · cases hlex with
        | @pair key value _ _ hkey hw hw' hne hvalue =>
            obtain ⟨c, hc, hclosed⟩ | hvalue := hvalue
            · refine Or.inl ⟨c, ?_, hclosed⟩
              rw [Option.mem_def] at hc
              simp [text, List.getLast?_append, List.getLast?_cons, hc]
            · right
              intro c hc
              simp only [text, List.mem_append, List.mem_cons] at hc
              obtain hc | rfl | hc := hc
              · exact isBlank_eq_false_of_isNameChar (hkey.2 c hc)
              · rfl
              · exact hvalue c hc
        | other hne hkey => simp [isPairShaped, hkey] at hpair
      · exact ih hr hx

/-! ## Reading a known token at the front of a text -/

theorem readAll_eq_match (cs : Text) :
    readAll cs = match read? (Text.trimStart cs) with
      | some (t, r) => t :: readAll r
      | none => [] := by
  rw [readAll]
  split <;> rename_i h <;> simp [h]

theorem tokenize_eq_match (cs : Text) :
    tokenize cs = match read? (Text.trimStart cs) with
      | some (t, r) => t.text :: tokenize r
      | none => [] := by
  rw [tokenize, readAll_eq_match]
  cases read? (Text.trimStart cs) with
  | none => rfl
  | some p => rfl

theorem tokenize_nil : tokenize [] = [] := by
  rw [tokenize_eq_match]
  rfl

theorem tokenize_append_of_blank {w : Text} (hw : w.all isBlank = true) (cs : Text) :
    tokenize (w ++ cs) = tokenize cs := by
  rw [tokenize_eq_match, Text.trimStart_append hw, ← tokenize_eq_match]

theorem tokenize_space_cons (cs : Text) : tokenize (' ' :: cs) = tokenize cs :=
  tokenize_append_of_blank (w := [' ']) rfl cs

theorem tokenize_of_read? {cs r : Text} {t : Token} (hs : Text.Stops isBlank cs)
    (h : read? cs = some (t, r)) : tokenize cs = t.text :: tokenize r := by
  rw [tokenize_eq_match, Text.trimStart_eq_self hs, h]

theorem stops_of_breaks {cs : Text} {test : Char → Bool} (h : cs.Breaks)
    (ht : ∀ c, isBlank c = true → test c = false) : Text.Stops test cs := by
  intro c hc
  exact ht c (by simpa using h c hc)

theorem stops_isNameChar_of_breaks {cs : Text} (h : cs.Breaks) : Text.Stops isNameChar cs := by
  apply stops_of_breaks h
  intro c hc
  refine Bool.eq_false_iff.2 fun hname => ?_
  rw [isBlank_eq_false_of_isNameChar hname] at hc
  exact Bool.false_ne_true hc

theorem readSteps_of_readStep?_eq_some {cs a r : Text} (h : readStep? cs = some (a, r)) :
    readSteps cs = before a (readSteps r) := by
  rw [readSteps]
  split
  · rename_i heq
    rw [h, Option.some.injEq, Prod.mk.injEq] at heq
    rw [heq.1, heq.2]
  · rename_i heq
    rw [h] at heq
    exact absurd heq (by simp)

theorem readSteps_of_readStep?_eq_none {cs : Text} (h : readStep? cs = none) :
    readSteps cs = ([], cs) := by
  rw [readSteps]
  split
  · rename_i heq
    rw [h] at heq
    exact absurd heq (by simp)
  · rfl

theorem readSteps_of_breaks {cs : Text} (h : cs.Breaks) : readSteps cs = ([], cs) := by
  have hstep : readStep? cs = none := by
    cases cs with
    | nil => rfl
    | cons c cs =>
        have hc : isBlank c = true := by simpa using h
        have hdot : c ≠ '.' := by
          rintro rfl
          exact absurd hc (by decide)
        have hbracket : c ≠ '[' := by
          rintro rfl
          exact absurd hc (by decide)
        simp [readStep?, readBracket?, hdot, hbracket]
  exact readSteps_of_readStep?_eq_none hstep

theorem readPair?_name_append {name rest : Text} (hname : IsName name)
    (hr : Text.Stops isNameChar rest) (he : Text.Stops (· == '=') (Text.trimStart rest)) :
    readPair? (name ++ rest) = none := by
  rw [readPair?, readName?_append hname hr]
  simp only
  split
  · rename_i heq
    rw [heq] at he
    simp at he
  · rfl

/-- A name begins a path with all the steps after it, unless an equals sign comes next. -/
theorem tokenize_name_steps {name rest : Text} (hname : IsName name)
    (hr : Text.Stops isNameChar rest) (he : Text.Stops (· == '=') (Text.trimStart rest)) :
    tokenize (name ++ rest) = (name ++ (readSteps rest).1) :: tokenize (readSteps rest).2 := by
  have hpath :
      readPath? (name ++ rest) = some (name ++ (readSteps rest).1, (readSteps rest).2) := by
    rw [readPath?, readName?_append hname hr]
    rfl
  have hread : read? (name ++ rest) =
      some (.path (name ++ (readSteps rest).1), (readSteps rest).2) := by
    rw [read?, readPair?_name_append hname hr he, Option.none_or, hpath]
    rfl
  apply tokenize_of_read? _ hread
  obtain ⟨c, name, rfl⟩ := List.exists_cons_of_ne_nil hname.1
  exact Text.stops_cons.2 (isBlank_eq_false_of_isNameChar (hname.2 c (by simp)))

/-- A name before white space is a token, unless an equals sign comes next. -/
theorem tokenize_name_append {name rest : Text} (hname : IsName name) (hr : rest.Breaks)
    (he : Text.Stops (· == '=') (Text.trimStart rest)) :
    tokenize (name ++ rest) = name :: tokenize rest := by
  rw [tokenize_name_steps hname (stops_isNameChar_of_breaks hr) he, readSteps_of_breaks hr,
    List.append_nil]

/-- Parentheses around a text without parentheses are a token, whatever follows. -/
theorem tokenize_group_append {a : Text} (hc : ')' ∉ a) (ho : '(' ∉ a) (rest : Text) :
    tokenize ('(' :: a ++ ')' :: rest) = ('(' :: a ++ [')']) :: tokenize rest := by
  have hname : readName? ('(' :: (a ++ ')' :: rest)) = none :=
    readName?_eq_none_iff.2 (Text.stops_cons.2 (by decide))
  have hpair : readPair? ('(' :: (a ++ ')' :: rest)) = none := by
    simp [readPair?, hname]
  have hpath : readPath? ('(' :: (a ++ ')' :: rest)) = none := by
    simp [readPath?, hname, readBracket?]
  have hgroup := readGroup?_append hc ho rest
  rw [List.cons_append] at hgroup ⊢
  have hread : read? ('(' :: (a ++ ')' :: rest)) = some (.group ('(' :: a ++ [')']), rest) := by
    simp [read?, hpair, hpath, hgroup]
  exact tokenize_of_read? (Text.stops_cons.2 rfl) hread

/-- An opening parenthesis that does not begin a group begins a run of characters up to the next
white space. -/
theorem tokenize_paren_of_readGroup? {cs : Text} (h : readGroup? ('(' :: cs) = none) :
    tokenize ('(' :: cs) =
      ('(' :: cs).takeWhile (!isBlank ·) :: tokenize (('(' :: cs).dropWhile (!isBlank ·)) := by
  have hblank : isBlank '(' = false := rfl
  have hname : readName? ('(' :: cs) = none :=
    readName?_eq_none_iff.2 (Text.stops_cons.2 (by decide))
  have hpair : readPair? ('(' :: cs) = none := by simp [readPair?, hname]
  have hpath : readPath? ('(' :: cs) = none := by simp [readPath?, hname, readBracket?]
  have hrun : readRun? ('(' :: cs) =
      some (('(' :: cs).takeWhile (!isBlank ·), ('(' :: cs).dropWhile (!isBlank ·)) := by
    rw [readRun?, readWhile?, if_neg (by simp [hblank])]
  have hread : read? ('(' :: cs) = some (.run (('(' :: cs).takeWhile (!isBlank ·)),
      ('(' :: cs).dropWhile (!isBlank ·)) := by
    have hquoted : readQuoted? ('(' :: cs) = none := rfl
    simp only [read?, hpair, hpath, h, hrun, hquoted, Option.map_none, Option.none_or,
      Option.map_some]
  exact tokenize_of_read? (Text.stops_cons.2 hblank) hread

/-- A pair is a name, an equals sign and a value. -/
theorem exists_eq_of_isPairShaped {k : Text} (h : isPairShaped k = true) :
    ∃ key value, IsName key ∧ k = key ++ '=' :: value := by
  unfold isPairShaped pairKey? at h
  split at h
  · rename_i key value hread
    exact ⟨key, value, Token.isName_of_readName?_eq_some hread, (Token.readWhile?_eq_some hread).1⟩
  · simp at h

theorem IsName.of_append_eq_cons {t rest u : Text} {c : Char} (h : IsName t)
    (heq : t ++ rest = c :: u) : isNameChar c = true := by
  obtain ⟨d, t', rfl⟩ := List.exists_cons_of_ne_nil h.1
  obtain ⟨rfl, -⟩ := List.cons.inj heq
  exact h.2 d (by simp)

theorem IsName.nonblank {t : Text} (h : IsName t) : ∀ c ∈ t, isBlank c = false :=
  fun c hc => isBlank_eq_false_of_isNameChar (h.2 c hc)

/-- A name character is none of the signs that tags and paths are made of. -/
theorem IsName.excludes {c : Char} (h : isNameChar c = true) :
    isBlank c = false ∧ c ≠ '~' ∧ c ≠ '{' ∧ c ≠ '}' ∧ c ≠ '|' ∧ c ≠ '(' ∧ c ≠ ')' := by
  refine ⟨isBlank_eq_false_of_isNameChar h, ?_⟩
  refine ⟨?_, ?_, ?_, ?_, ?_, ?_⟩ <;> (rintro rfl; exact absurd h (by decide))

theorem IsName.braceless {t : Text} (h : IsName t) : ∀ c ∈ t, c ≠ '{' ∧ c ≠ '}' :=
  fun c hc => ⟨(IsName.excludes (h.2 c hc)).2.2.1, (IsName.excludes (h.2 c hc)).2.2.2.1⟩

end MustachePath
