import MustachePath.Proofs.Tokens

/-!
# Reading tokens that were joined again

Joining the tokens of a text with single spaces and reading the result gives the same tokens
(`tokenize_joinSpaced_tokenize`). What kind of token is read depends on brackets, quotes and equals
signs further on, but not on the white space between tokens (`Respaced`). White space counts only
behind a backslash in a quote that does not close: there the reader refuses a line feed, and takes
the space that would replace it.
-/

namespace MustachePath

/-! ## What the reader of quotes looks at -/

/-- The characters that can end a quote: neither white space nor backslashes, nor hidden by a
backslash. The flag says whether a backslash hides the first one. -/
def visibleFrom (hidden : Bool) : Text → Text
  | [] => []
  | c :: cs =>
    if hidden || c == '\\' || isBlank c then visibleFrom (c == '\\' && !hidden) cs
    else c :: visibleFrom false cs

/-- Whether a text ends with a backslash that hides the next character. -/
def hidesNext (hidden : Bool) : Text → Bool
  | [] => hidden
  | c :: cs => hidesNext (c == '\\' && !hidden) cs

theorem visibleFrom_append (hidden : Bool) (s t : Text) :
    visibleFrom hidden (s ++ t) = visibleFrom hidden s ++ visibleFrom (hidesNext hidden s) t := by
  induction s generalizing hidden with
  | nil => rfl
  | cons c s ih =>
      cases hskip : hidden || c == '\\' || isBlank c with
      | true => simp [visibleFrom, hidesNext, hskip, ih]
      | false =>
          simp only [Bool.or_eq_false_iff] at hskip
          simp [visibleFrom, hidesNext, hskip, ih]

theorem hidesNext_concat (hidden : Bool) (s : Text) (c : Char) :
    hidesNext hidden (s ++ [c]) = (c == '\\' && !hidesNext hidden s) := by
  induction s generalizing hidden with
  | nil => rfl
  | cons d s ih => exact ih _

theorem getLast?_of_hidesNext {s : Text} (h : hidesNext false s = true) :
    s.getLast? = some '\\' := by
  obtain rfl | ⟨u, c, rfl⟩ := List.eq_nil_or_concat s
  · simp [hidesNext] at h
  · rw [List.concat_eq_append, hidesNext_concat] at h
    simp only [Bool.and_eq_true, beq_iff_eq] at h
    simp [h.1]

theorem visibleFrom_slash (c : Char) (cs : Text) :
    visibleFrom false ('\\' :: c :: cs) = visibleFrom false cs := by
  simp [visibleFrom]

theorem visibleFrom_cons {c : Char} (hc : isBlank c = false) (hslash : c ≠ '\\') (cs : Text) :
    visibleFrom false (c :: cs) = c :: visibleFrom false cs := by
  simp [visibleFrom, hc, hslash]

theorem visibleFrom_blank {c : Char} (hc : isBlank c = true) (hidden : Bool) (cs : Text) :
    visibleFrom hidden (c :: cs) = visibleFrom false cs := by
  have hslash : (c == '\\') = false := by
    rw [beq_eq_false_iff_ne]
    rintro rfl
    exact absurd hc (by decide)
  simp [visibleFrom, hc, hslash]

theorem visibleFrom_of_breaks {cs : Text} (h : cs.Breaks) (hidden : Bool) :
    visibleFrom hidden cs = visibleFrom false cs := by
  cases cs with
  | nil => rfl
  | cons c cs =>
      have hc : isBlank c = true := by simpa using h
      rw [visibleFrom_blank hc, visibleFrom_blank hc]

theorem visibleFrom_append_of_blank {w : Text} (hw : w.all isBlank = true) (cs : Text) :
    visibleFrom false (w ++ cs) = visibleFrom false cs := by
  induction w with
  | nil => rfl
  | cons c w ih =>
      simp only [List.all_cons, Bool.and_eq_true] at hw
      rw [List.cons_append, visibleFrom_blank hw.1, ih hw.2]

theorem visibleFrom_name_append {key : Text} (hkey : ∀ c ∈ key, isNameChar c = true) (cs : Text) :
    visibleFrom false (key ++ cs) = key ++ visibleFrom false cs := by
  induction key with
  | nil => rfl
  | cons c key ih =>
      have hname := hkey c (by simp)
      have hslash : c ≠ '\\' := by
        rintro rfl
        exact absurd hname (by decide)
      rw [List.cons_append, visibleFrom_cons (isBlank_eq_false_of_isNameChar hname) hslash,
        ih fun d hd => hkey d (List.mem_cons_of_mem c hd), List.cons_append]

namespace Token

/-- A token is seen like its lexeme: white space around an equals sign hides nothing. -/
theorem Lexeme.visibleFrom_eq {t : Token} {l : Text} (h : Lexeme t l) (cs : Text) :
    visibleFrom false (l ++ cs) = visibleFrom false (t.text ++ cs) := by
  cases h with
  | pair hkey hw hw' hne hvalue =>
      have hsign : ∀ s, visibleFrom false ('=' :: s) = '=' :: visibleFrom false s := fun s => rfl
      simp only [text, List.append_assoc, List.cons_append, visibleFrom_name_append hkey.2,
        visibleFrom_append_of_blank hw, visibleFrom_append_of_blank hw', hsign]
  | other hne hkey => rfl

/-- Where no backslash stands before a line feed, a quote without an end has no closing quote that
can be seen. -/
theorem notMem_visibleFrom_of_readQuoteEnd? {q : Char} {cs : Text}
    (hfeed : ¬ ['\\', '\n'] <:+: cs) (h : readQuoteEnd? q cs = none) :
    q ∉ visibleFrom false cs := by
  fun_induction readQuoteEnd? q cs with
  | case1 => simp [visibleFrom]
  | case2 cs => exact absurd ⟨[], cs, rfl⟩ hfeed
  | case3 c cs hc ih =>
      have htail : ¬ ['\\', '\n'] <:+: cs :=
        fun hin => hfeed (hin.trans ⟨['\\', c], [], by simp⟩)
      rw [visibleFrom_slash]
      exact ih htail (Option.map_eq_none_iff.1 h)
  | case4 => simp at h
  | case5 cs hend =>
      cases cs with
      | nil => simp [visibleFrom]
      | cons d cs => exact absurd rfl (hend d cs rfl)
  | case6 c cs hend hquote hslash ih =>
      have htail : ¬ ['\\', '\n'] <:+: cs :=
        fun hin => hfeed (hin.trans (List.suffix_cons c cs).isInfix)
      have hrest := ih htail (Option.map_eq_none_iff.1 h)
      cases hblank : isBlank c with
      | true => rwa [visibleFrom_blank hblank]
      | false =>
          rw [visibleFrom_cons hblank hslash, List.mem_cons, not_or]
          exact ⟨Ne.symm hquote, hrest⟩

/-- Without a closing quote that can be seen a quote has no end. -/
theorem readQuoteEnd?_eq_none {q : Char} (hq : isBlank q = false) (hq' : q ≠ '\\') {cs : Text}
    (h : q ∉ visibleFrom false cs) : readQuoteEnd? q cs = none := by
  fun_induction readQuoteEnd? q cs with
  | case1 => rfl
  | case2 cs => rfl
  | case3 c cs hc ih =>
      rw [visibleFrom_slash] at h
      rw [ih h]
      rfl
  | case4 cs hend => simp [visibleFrom_cons hq hq'] at h
  | case5 cs hend => rfl
  | case6 c cs hend hquote hslash ih =>
      have hrest : q ∉ visibleFrom false cs := by
        cases hblank : isBlank c with
        | true => rwa [visibleFrom_blank hblank] at h
        | false =>
            rw [visibleFrom_cons hblank hslash, List.mem_cons, not_or] at h
            exact h.2
      rw [ih hrest]
      rfl

/-! ## Parts that a reader closes -/

/-- Whether a reader looks no further than the part that it reads. -/
def Closing (reader : Reader) : Prop :=
  ∀ {cs a r}, reader cs = some (a, r) → ∀ r', reader (a ++ r') = some (a, r')

theorem closing_readUntil? (o c : Char) : Closing (readUntil? o c) := by
  intro cs a r h r'
  induction cs generalizing a r with
  | nil => simp [readUntil?] at h
  | cons d cs ih =>
      simp only [readUntil?] at h
      split at h
      · rename_i hdc
        simp only [Option.some.injEq, Prod.mk.injEq] at h
        simp [← h.1, readUntil?, hdc]
      · rename_i hdc
        split at h
        · simp at h
        · rename_i hdo
          simp only [Option.map_eq_some_iff, before, Prod.mk.injEq, Prod.exists] at h
          obtain ⟨b, s, hb, rfl, -⟩ := h
          rw [List.cons_append, List.nil_append, List.cons_append, readUntil?, if_neg hdc,
            if_neg hdo, ih hb]
          rfl

theorem readQuoteEnd?_cons {q c : Char} (hc : c ≠ '\\') (cs : Text) :
    readQuoteEnd? q (c :: cs) =
      if c = q then some ([c], cs) else (readQuoteEnd? q cs).map (before [c]) := by
  cases cs <;> simp [readQuoteEnd?, hc]

theorem closing_readQuoteEnd? {q : Char} (hq : q ≠ '\\') : Closing (readQuoteEnd? q) := by
  intro cs a r h r'
  fun_induction readQuoteEnd? q cs generalizing a r with
  | case1 => simp at h
  | case2 => simp at h
  | case3 c cs hc ih =>
      simp only [Option.map_eq_some_iff, before, Prod.mk.injEq, Prod.exists] at h
      obtain ⟨b, s, hb, rfl, -⟩ := h
      have hcons : ['\\', c] ++ b ++ r' = '\\' :: c :: (b ++ r') := rfl
      rw [hcons, readQuoteEnd?, if_neg hc, ih hb]
      rfl
  | case4 cs hend =>
      simp only [Option.some.injEq, Prod.mk.injEq] at h
      rw [← h.1, List.cons_append, List.nil_append, readQuoteEnd?_cons hq, if_pos rfl]
  | case5 => simp at h
  | case6 c cs hend hquote hslash ih =>
      simp only [Option.map_eq_some_iff, before, Prod.mk.injEq, Prod.exists] at h
      obtain ⟨b, s, hb, rfl, -⟩ := h
      rw [List.cons_append, List.nil_append, List.cons_append, readQuoteEnd?_cons hslash,
        if_neg hquote, ih hb]
      rfl

/-- A reader that first takes an opening character looks no further if what it goes on with does
not. -/
theorem closing_cons {reader inner : Reader} {d : Char} (h : Closing inner)
    (hreader : ∀ cs, reader (d :: cs) = (inner cs).map (before [d])) {cs a r : Text}
    (hread : (inner cs).map (before [d]) = some (a, r)) (r' : Text) :
    reader (a ++ r') = some (a, r') := by
  simp only [Option.map_eq_some_iff, before, Prod.mk.injEq, Prod.exists] at hread
  obtain ⟨b, s, hb, rfl, -⟩ := hread
  rw [List.cons_append, List.nil_append, List.cons_append, hreader, h hb]
  rfl

theorem closing_readBracket? : Closing readBracket? := by
  intro cs a r h r'
  unfold readBracket? at h
  split at h
  · exact closing_cons (closing_readUntil? '[' ']') (fun _ => rfl) h r'
  · simp at h

theorem closing_readGroup? : Closing readGroup? := by
  intro cs a r h r'
  unfold readGroup? at h
  split at h
  · exact closing_cons (closing_readUntil? '(' ')') (fun _ => rfl) h r'
  · simp at h

theorem closing_readQuoted? : Closing readQuoted? := by
  intro cs a r h r'
  unfold readQuoted? at h
  split at h
  · have hne : '"' ≠ '\\' := by decide
    exact closing_cons (closing_readQuoteEnd? hne) (fun _ => rfl) h r'
  · have hne : '\'' ≠ '\\' := by decide
    exact closing_cons (closing_readQuoteEnd? hne) (fun _ => rfl) h r'
  · simp at h

/-- The text up to a closing character is found by the first bracket alone. -/
theorem readUntil?_eq_none_iff {o c : Char} {cs : Text} :
    readUntil? o c cs = none ↔ cs.find? (fun d => d == c || d == o) ≠ some c := by
  induction cs with
  | nil => simp [readUntil?]
  | cons d cs ih =>
      by_cases hdc : d = c
      · simp [readUntil?, hdc]
      · by_cases hdo : d = o
        · subst hdo
          simp [readUntil?, hdc]
        · simp [readUntil?, hdc, hdo, ih]

/-- Whether a part can be read up to a closing character does not depend on white space. -/
theorem readUntil?_eq_none_congr {o c : Char} (ho : isBlank o = false) (hc : isBlank c = false)
    {cs cs' : Text} (h : cs.filter (!isBlank ·) = cs'.filter (!isBlank ·)) :
    readUntil? o c cs = none ↔ readUntil? o c cs' = none := by
  have hfind : ∀ ds : Text, ds.find? (fun d => d == c || d == o) =
      (ds.filter (!isBlank ·)).find? fun d => d == c || d == o := by
    intro ds
    rw [List.find?_filter]
    congr 1
    funext d
    by_cases hd : d = c ∨ d = o
    · obtain rfl | rfl := hd <;> simp [ho, hc]
    · simp [not_or.1 hd]
  rw [readUntil?_eq_none_iff, readUntil?_eq_none_iff, hfind, hfind cs', h]

/-! ## What stays the same when white space changes -/

theorem readPath?_eq_none_iff {cs : Text} :
    readPath? cs = none ↔ Text.Stops isNameChar cs ∧ readBracket? cs = none := by
  rw [readPath?, Option.map_eq_none_iff, Option.or_eq_none_iff, readName?_eq_none_iff]

theorem readPair?_eq_none_of_stops {cs : Text} (h : Text.Stops isNameChar cs) :
    readPair? cs = none := by
  rw [readPair?, readName?_eq_none_iff.2 h]

/-- A value is missing only where nothing but white space is left. -/
theorem readValue?_trimStart_eq_none_iff {cs : Text} :
    readValue? (Text.trimStart cs) = none ↔ cs.filter (!isBlank ·) = [] := by
  rw [← Text.filter_trimStart]
  have hstops : Text.Stops isBlank (Text.trimStart cs) := Text.stops_dropWhile isBlank cs
  cases htrim : Text.trimStart cs with
  | nil => exact ⟨fun _ => rfl, fun _ => rfl⟩
  | cons c r =>
      rw [htrim, Text.stops_cons] at hstops
      have hrun : readRun? (c :: r) ≠ none := by
        intro h
        have hstop := Text.stops_cons.1 (readWhile?_eq_none_iff.1 h)
        simp [hstops] at hstop
      constructor
      · intro h
        simp only [readValue?, Option.or_eq_none_iff] at h
        exact absurd h.2.2 hrun
      · simp [hstops]

/-- A name is no pair if no equals sign comes next, or nothing after the sign. -/
theorem readPair?_name_eq_none_iff {name rest : Text} (hname : IsName name)
    (hr : Text.Stops isNameChar rest) :
    readPair? (name ++ rest) = none ↔
      ∀ u, rest.filter (!isBlank ·) = '=' :: u → u = [] := by
  have hstops : Text.Stops isBlank (Text.trimStart rest) := Text.stops_dropWhile isBlank rest
  rw [readPair?, readName?_append hname hr, ← Text.filter_trimStart rest]
  cases htrim : Text.trimStart rest with
  | nil => simp [htrim]
  | cons c r =>
      rw [htrim, Text.stops_cons] at hstops
      by_cases hc : c = '='
      · subst hc
        simp [htrim, readValue?_trimStart_eq_none_iff, hstops]
      · simp [htrim, hc, hstops]

/-! ## Ends of tokens -/

theorem getLast?_of_readBracket? {cs a r : Text} (h : readBracket? cs = some (a, r)) :
    a.getLast? = some ']' := by
  unfold readBracket? at h
  split at h
  · simp only [Option.map_eq_some_iff, before, Prod.mk.injEq, Prod.exists] at h
    obtain ⟨b, s, hb, rfl, -⟩ := h
    simp [List.getLast?_cons, getLast?_of_readUntil?_eq_some hb]
  · simp at h

/-- The characters at which a reader of tokens ends a token without white space after it. -/
def ClosesToken (c : Char) : Prop :=
  isNameChar c = true ∨ c = ']' ∨ c = '"' ∨ c = '\'' ∨ c = ')'

instance (c : Char) : Decidable (ClosesToken c) :=
  inferInstanceAs (Decidable (_ ∨ _ ∨ _ ∨ _ ∨ _))

theorem ClosesToken.nonblank {c : Char} (h : ClosesToken c) : isBlank c = false := by
  obtain hname | rfl | rfl | rfl | rfl := h
  · exact isBlank_eq_false_of_isNameChar hname
  all_goals rfl

theorem closesToken_of_readName? {cs a r : Text} (h : readName? cs = some (a, r)) :
    ∀ c ∈ a.getLast?, ClosesToken c :=
  fun c hc => Or.inl ((isName_of_readName?_eq_some h).2 c (List.mem_of_getLast? hc))

theorem closesToken_of_readBracket? {cs a r : Text} (h : readBracket? cs = some (a, r)) :
    ∀ c ∈ a.getLast?, ClosesToken c := by
  intro c hc
  rw [getLast?_of_readBracket? h, Option.mem_def, Option.some.injEq] at hc
  exact Or.inr (Or.inl hc.symm)

theorem closesToken_of_readStep? {cs a r : Text} (h : readStep? cs = some (a, r)) :
    ∀ c ∈ a.getLast?, ClosesToken c := by
  unfold readStep? at h
  split at h
  · simp only [Option.map_eq_some_iff, before, Prod.mk.injEq, Prod.exists,
      Option.or_eq_some_iff] at h
    obtain ⟨b, s, hb, rfl, -⟩ := h
    obtain hb | ⟨-, hb⟩ := hb
    · rw [List.singleton_append, List.getLast?_cons_of_ne_nil (readWhile?_eq_some hb).2]
      exact closesToken_of_readName? hb
    · rw [List.singleton_append, List.getLast?_cons_of_ne_nil (readBracket?_eq_some hb).2]
      exact closesToken_of_readBracket? hb
  · exact closesToken_of_readBracket? h

theorem closesToken_readSteps (cs : Text) : ∀ c ∈ (readSteps cs).1.getLast?, ClosesToken c := by
  fun_induction readSteps cs with
  | case1 cs a r h ih =>
      intro c hc
      rw [before, List.getLast?_append, Option.mem_def, Option.or_eq_some_iff] at hc
      obtain hc | ⟨-, hc⟩ := hc
      · exact ih c hc
      · exact closesToken_of_readStep? h c hc
  | case2 => simp

theorem closesToken_of_readPath? {cs a r : Text} (h : readPath? cs = some (a, r)) :
    ∀ c ∈ a.getLast?, ClosesToken c := by
  simp only [readPath?, Option.map_eq_some_iff, Option.or_eq_some_iff, before, Prod.mk.injEq,
    Prod.exists] at h
  obtain ⟨b, s, hb, rfl, -⟩ := h
  intro c hc
  rw [List.getLast?_append, Option.mem_def, Option.or_eq_some_iff] at hc
  obtain hc | ⟨-, hc⟩ := hc
  · exact closesToken_readSteps s c hc
  · obtain hb | ⟨-, hb⟩ := hb
    · exact closesToken_of_readName? hb c hc
    · exact closesToken_of_readBracket? hb c hc

theorem EndsClosed.closesToken {t : Text} (h : EndsClosed t) : ∀ c ∈ t.getLast?, ClosesToken c := by
  obtain ⟨d, hd, hclosed⟩ := h
  intro c hc
  rw [Option.mem_def] at hc hd
  rw [hd, Option.some.injEq] at hc
  rw [← hc]
  exact Or.inr (Or.inr hclosed)

theorem nonblank_and_breaks_of_readRun? {cs a r : Text} (h : readRun? cs = some (a, r)) :
    (∀ c ∈ a, isBlank c = false) ∧ r.Breaks := by
  obtain ⟨hrun, hbreaks⟩ := all_of_readWhile?_eq_some h
  exact ⟨fun c hc => by simpa using hrun c hc, hbreaks⟩

/-- A value ends where its reader closes it, or it holds no white space and ends before some. -/
theorem closesToken_or_breaks_of_readValue? {cs v r : Text} (h : readValue? cs = some (v, r)) :
    (∀ c ∈ v.getLast?, ClosesToken c) ∨ (∀ c ∈ v, isBlank c = false) ∧ r.Breaks := by
  simp only [readValue?, Option.or_eq_some_iff] at h
  obtain h | ⟨-, h | ⟨-, h⟩⟩ := h
  · exact Or.inl (endsClosed_of_readQuoted? h).closesToken
  · exact Or.inl (endsClosed_of_readGroup? h).closesToken
  · exact Or.inr (nonblank_and_breaks_of_readRun? h)

/-- A token ends where its reader closes it, or it does not end with white space but before some. -/
theorem closesToken_or_breaks_of_read? {cs r : Text} {t : Token} (h : read? cs = some (t, r)) :
    (∀ c ∈ t.text.getLast?, ClosesToken c) ∨
      (∀ c ∈ t.text.getLast?, isBlank c = false) ∧ r.Breaks := by
  simp only [read?, Option.or_eq_some_iff, Option.map_eq_some_iff, Prod.mk.injEq,
    Prod.exists] at h
  obtain h | ⟨-, h | ⟨-, h | ⟨-, h | ⟨-, h⟩⟩⟩⟩ := h
  · unfold readPair? at h
    split at h
    · simp at h
    · split at h
      · simp only [Option.map_eq_some_iff, Prod.mk.injEq, Prod.exists] at h
        obtain ⟨v, s, hv, rfl, rfl⟩ := h
        have hne := (readValue?_eq_some hv).2
        rw [text, ← List.singleton_append, ← List.append_assoc,
          Text.getLast?_append_of_ne_nil hne]
        refine (closesToken_or_breaks_of_readValue? hv).imp_right fun hend => ?_
        exact ⟨fun c hc => hend.1 c (List.mem_of_getLast? hc), hend.2⟩
      · simp at h
  · obtain ⟨a, s, ha, rfl, rfl⟩ := h
    exact Or.inl (closesToken_of_readPath? ha)
  · obtain ⟨a, s, ha, rfl, rfl⟩ := h
    exact Or.inl (endsClosed_of_readGroup? ha).closesToken
  · obtain ⟨a, s, ha, rfl, rfl⟩ := h
    exact Or.inl (endsClosed_of_readQuoted? ha).closesToken
  · obtain ⟨a, s, ha, rfl, rfl⟩ := h
    obtain ⟨hnonblank, hbreaks⟩ := nonblank_and_breaks_of_readRun? ha
    exact Or.inr ⟨fun c hc => hnonblank c (List.mem_of_getLast? hc), hbreaks⟩

theorem breaks_of_readValue? {cs v r : Text} {c : Char} (h : readValue? cs = some (v, r))
    (hlast : v.getLast? = some c) (hc : ¬ ClosesToken c) : r.Breaks :=
  (closesToken_or_breaks_of_readValue? h).elim
    (fun hclosed => absurd (hclosed c hlast) hc) And.right

/-- After a token that no reader closes stands white space. -/
theorem breaks_of_read? {cs r : Text} {t : Token} {c : Char} (h : read? cs = some (t, r))
    (hlast : t.text.getLast? = some c) (hc : ¬ ClosesToken c) : r.Breaks :=
  (closesToken_or_breaks_of_read? h).elim (fun hclosed => absurd (hclosed c hlast) hc) And.right

/-! ## Reading a token before a rest with other white space -/

/-- Whether a text can stand for another one after a token: it begins with white space, and
otherwise differs only in white space that no reader notices. -/
structure Respaced (r r' : Text) : Prop where
  breaks : r'.Breaks
  nonblank : r.filter (!isBlank ·) = r'.filter (!isBlank ·)
  visible : visibleFrom false r = visibleFrom false r'

section Respaced

variable {r r' : Text} (h : Respaced r r')
include h

theorem Respaced.filter_append (s : Text) :
    (s ++ r).filter (!isBlank ·) = (s ++ r').filter (!isBlank ·) := by
  rw [List.filter_append, List.filter_append, h.nonblank]

theorem Respaced.visible_append {s : Text} (hs : s.getLast? = some '\\' → r.Breaks) :
    visibleFrom false (s ++ r) = visibleFrom false (s ++ r') := by
  rw [visibleFrom_append, visibleFrom_append]
  cases hhides : hidesNext false s with
  | false => rw [h.visible]
  | true =>
      rw [visibleFrom_of_breaks (hs (getLast?_of_hidesNext hhides)), visibleFrom_of_breaks h.breaks,
        h.visible]

/-- Where no brackets can be read, none can be read before the other rest. -/
theorem readBracket?_eq_none_of_respaced {a : Text} (ha : a ≠ [])
    (hnone : readBracket? (a ++ r) = none) : readBracket? (a ++ r') = none := by
  obtain ⟨c, a, rfl⟩ := List.exists_cons_of_ne_nil ha
  rw [List.cons_append] at hnone ⊢
  by_cases hc : c = '['
  · subst hc
    rw [readBracket?, Option.map_eq_none_iff] at hnone ⊢
    exact (readUntil?_eq_none_congr rfl rfl (h.filter_append a)).1 hnone
  · unfold readBracket?
    split
    · rename_i heq
      exact absurd (List.cons.inj heq).1 hc
    · rfl

theorem readGroup?_eq_none_of_respaced {a : Text} (ha : a ≠ [])
    (hnone : readGroup? (a ++ r) = none) : readGroup? (a ++ r') = none := by
  obtain ⟨c, a, rfl⟩ := List.exists_cons_of_ne_nil ha
  rw [List.cons_append] at hnone ⊢
  by_cases hc : c = '('
  · subst hc
    rw [readGroup?, Option.map_eq_none_iff] at hnone ⊢
    exact (readUntil?_eq_none_congr rfl rfl (h.filter_append a)).1 hnone
  · unfold readGroup?
    split
    · rename_i heq
      exact absurd (List.cons.inj heq).1 hc
    · rfl

theorem readQuoteEnd?_eq_none_of_respaced {q : Char} (hq : isBlank q = false) (hq' : q ≠ '\\')
    {a : Text} (hlast : a.getLast? = some '\\' → r.Breaks) (hfeed : ¬ ['\\', '\n'] <:+: a ++ r)
    (hnone : readQuoteEnd? q (a ++ r) = none) : readQuoteEnd? q (a ++ r') = none := by
  apply readQuoteEnd?_eq_none hq hq'
  rw [← h.visible_append hlast]
  exact notMem_visibleFrom_of_readQuoteEnd? hfeed hnone

theorem readQuoted?_eq_none_of_respaced {a : Text} (ha : a ≠ [])
    (hlast : a.getLast? = some '\\' → r.Breaks) (hfeed : ¬ ['\\', '\n'] <:+: a ++ r)
    (hnone : readQuoted? (a ++ r) = none) : readQuoted? (a ++ r') = none := by
  obtain ⟨c, a, rfl⟩ := List.exists_cons_of_ne_nil ha
  rw [List.cons_append] at hnone hfeed ⊢
  have hlast' : a.getLast? = some '\\' → r.Breaks := by
    intro ha
    apply hlast
    rw [List.getLast?_cons, ha]
    rfl
  have hfeed' : ¬ ['\\', '\n'] <:+: a ++ r :=
    fun hin => hfeed (hin.trans (List.suffix_cons c _).isInfix)
  by_cases hdouble : c = '"'
  · subst hdouble
    rw [readQuoted?, Option.map_eq_none_iff] at hnone ⊢
    exact readQuoteEnd?_eq_none_of_respaced h rfl (by decide) hlast' hfeed' hnone
  · by_cases hsingle : c = '\''
    · subst hsingle
      rw [readQuoted?, Option.map_eq_none_iff] at hnone ⊢
      exact readQuoteEnd?_eq_none_of_respaced h rfl (by decide) hlast' hfeed' hnone
    · unfold readQuoted?
      split
      · rename_i heq
        exact absurd (List.cons.inj heq).1 hdouble
      · rename_i heq
        exact absurd (List.cons.inj heq).1 hsingle
      · rfl

theorem readValue?_respaced {cs v : Text} (hfeed : ¬ ['\\', '\n'] <:+: cs)
    (hv : readValue? cs = some (v, r)) : readValue? (v ++ r') = some (v, r') := by
  have hlast := fun hslash => breaks_of_readValue? (c := '\\') hv hslash (by decide)
  obtain ⟨rfl, hne⟩ := readValue?_eq_some hv
  simp only [readValue?, Option.or_eq_some_iff] at hv ⊢
  obtain hv | ⟨hquoted, hv⟩ := hv
  · exact Or.inl (closing_readQuoted? hv r')
  · refine Or.inr ⟨readQuoted?_eq_none_of_respaced h hne hlast hfeed hquoted, ?_⟩
    obtain hv | ⟨hgroup, hv⟩ := hv
    · exact Or.inl (closing_readGroup? hv r')
    · refine Or.inr ⟨readGroup?_eq_none_of_respaced h hne hgroup, ?_⟩
      exact readWhile?_append hne (all_of_readWhile?_eq_some hv).1 h.breaks

theorem readPair?_respaced {cs : Text} {t : Token} (hfeed : ¬ ['\\', '\n'] <:+: cs)
    (ht : readPair? cs = some (t, r)) : readPair? (t.text ++ r') = some (t, r') := by
  unfold readPair? at ht
  split at ht
  · simp at ht
  · rename_i key s hkey
    split at ht
    · rename_i s' hs
      simp only [Option.map_eq_some_iff, Prod.mk.injEq, Prod.exists] at ht
      obtain ⟨v, r, hv, rfl, rfl⟩ := ht
      obtain ⟨hsplit, hne⟩ := readValue?_eq_some hv
      have hsuffix : Text.trimStart s' <:+: cs := by
        have hcs := (readWhile?_eq_some hkey).1
        have hs' : '=' :: s' <:+ s := by
          rw [← hs]
          exact List.dropWhile_suffix isBlank
        exact ((List.dropWhile_suffix isBlank).trans ((List.suffix_cons '=' s').trans
          (hs'.trans ⟨key, hcs.symm⟩))).isInfix
      have hstart : Text.trimStart (v ++ r') = v ++ r' := by
        have hstops : Text.Stops isBlank (Text.trimStart s') := Text.stops_dropWhile isBlank s'
        rw [hsplit] at hstops
        obtain ⟨c, v, rfl⟩ := List.exists_cons_of_ne_nil hne
        exact Text.trimStart_eq_self (Text.stops_cons.2 (Text.stops_cons.1 hstops))
      have hvalue := readValue?_respaced h (fun hin => hfeed (hin.trans hsuffix)) hv
      have hsign : Text.trimStart ('=' :: (v ++ r')) = '=' :: (v ++ r') :=
        Text.trimStart_eq_self (Text.stops_cons.2 rfl)
      rw [text, List.append_assoc, List.cons_append, readPair?,
        readName?_append (isName_of_readName?_eq_some hkey) (Text.stops_cons.2 (by decide))]
      simp only [hsign, hstart, hvalue, Option.map_some]
    · simp at ht

end Respaced

/-! ## Paths before white space -/

/-- Brackets are no name. -/
theorem readName?_of_readBracket? {cs a r : Text} (h : readBracket? cs = some (a, r)) (r' : Text) :
    readName? (a ++ r') = none := by
  have hhead := head?_of_readBracket?_eq_some h
  cases a with
  | nil => simp at hhead
  | cons d a =>
      simp only [List.head?_cons, Option.some.injEq] at hhead
      rw [hhead]
      exact readName?_eq_none_iff.2 (Text.stops_cons.2 (by decide))

theorem readStep?_append_of_eq_some {cs a r r' : Text} (h : readStep? cs = some (a, r))
    (hr' : Text.Stops isNameChar r') : readStep? (a ++ r') = some (a, r') := by
  unfold readStep? at h
  split at h
  · simp only [Option.map_eq_some_iff, before, Prod.mk.injEq, Prod.exists,
      Option.or_eq_some_iff] at h
    obtain ⟨b, s, hb, rfl, -⟩ := h
    rw [List.cons_append, List.nil_append, List.cons_append, readStep?]
    obtain hb | ⟨-, hb⟩ := hb
    · rw [readName?_append (isName_of_readName?_eq_some hb) hr']
      rfl
    · rw [readName?_of_readBracket? hb, closing_readBracket? hb]
      rfl
  · have hhead := head?_of_readBracket?_eq_some h
    have hread := closing_readBracket? h r'
    cases a with
    | nil => simp at hhead
    | cons d a =>
        simp only [List.head?_cons, Option.some.injEq] at hhead
        subst hhead
        exact hread

/-- What follows a name in a path does not go on with the name. -/
theorem stops_readSteps_append (cs : Text) {r' : Text} (hr' : r'.Breaks) :
    Text.Stops isNameChar ((readSteps cs).1 ++ r') := by
  have hhead := head?_readSteps cs
  cases hsteps : (readSteps cs).1 with
  | nil => exact stops_isNameChar_of_breaks hr'
  | cons c steps =>
      rw [hsteps] at hhead
      obtain rfl | rfl := hhead c rfl
      · exact Text.stops_cons.2 (by decide)
      · exact Text.stops_cons.2 (by decide)

theorem readSteps_append_of_breaks (cs : Text) {r' : Text} (hr' : r'.Breaks) :
    readSteps ((readSteps cs).1 ++ r') = ((readSteps cs).1, r') := by
  fun_induction readSteps cs with
  | case1 cs a r h ih =>
      have hstep := readStep?_append_of_eq_some h (stops_readSteps_append r hr')
      rw [before, List.append_assoc, readSteps_of_readStep?_eq_some hstep, ih]
      rfl
  | case2 => exact readSteps_of_breaks hr'

theorem readPath?_append_of_breaks {cs a r r' : Text} (h : readPath? cs = some (a, r))
    (hr' : r'.Breaks) : readPath? (a ++ r') = some (a, r') := by
  simp only [readPath?, Option.map_eq_some_iff, Option.or_eq_some_iff, before, Prod.mk.injEq,
    Prod.exists] at h
  obtain ⟨b, s, hb, rfl, -⟩ := h
  have hfront : (readName? (b ++ ((readSteps s).1 ++ r'))).or
      (readBracket? (b ++ ((readSteps s).1 ++ r'))) = some (b, (readSteps s).1 ++ r') := by
    obtain hb | ⟨hname, hb⟩ := hb
    · rw [readName?_append (isName_of_readName?_eq_some hb) (stops_readSteps_append s hr')]
      rfl
    · rw [readName?_of_readBracket? hb, closing_readBracket? hb]
      rfl
  rw [readPath?, List.append_assoc, hfront, Option.map_some, readSteps_append_of_breaks s hr']
  rfl

/-! ## Reading all tokens again -/

section Respaced

variable {r r' : Text} (h : Respaced r r')
include h

/-- A path is no pair before the other rest either: the equals sign that would make it one is no
white space. -/
theorem readPair?_eq_none_of_respaced {a : Text} (hpath : readPath? (a ++ r) = some (a, r))
    (hnone : readPair? (a ++ r) = none) : readPair? (a ++ r') = none := by
  simp only [readPath?, Option.map_eq_some_iff, Option.or_eq_some_iff, before, Prod.mk.injEq,
    Prod.exists] at hpath
  obtain ⟨b, s, hb, ha, hr⟩ := hpath
  have hsteps := stops_readSteps_append s h.breaks
  have hhead := head?_readSteps s
  obtain hb | ⟨-, hb⟩ := hb
  · have hname := isName_of_readName?_eq_some hb
    cases hs : (readSteps s).1 with
    | nil =>
        rw [hs, List.append_nil] at ha
        subst ha
        have hstops : Text.Stops isNameChar r := by
          have hrest := (all_of_readWhile?_eq_some hb).2
          have hsplit := readSteps_append s
          rw [hs, List.nil_append, hr] at hsplit
          rwa [hsplit]
        rw [readPair?_name_eq_none_iff hname hstops, h.nonblank] at hnone
        exact (readPair?_name_eq_none_iff hname (stops_isNameChar_of_breaks h.breaks)).2 hnone
    | cons c steps =>
        rw [hs] at ha hsteps hhead
        rw [← ha, List.append_assoc]
        apply readPair?_name_append hname hsteps
        have hc : isBlank c = false ∧ (c == '=') = false := by
          obtain rfl | rfl := hhead c rfl <;> exact ⟨rfl, rfl⟩
        rw [List.cons_append, Text.trimStart_eq_self (Text.stops_cons.2 hc.1)]
        exact Text.stops_cons.2 hc.2
  · rw [← ha, List.append_assoc]
    exact readPair?_eq_none_of_stops (readName?_eq_none_iff.1 (readName?_of_readBracket? hb _))

/-- A token is read again as it was, whatever white space follows it now. -/
theorem read?_respaced {cs : Text} {t : Token} (hfeed : ¬ ['\\', '\n'] <:+: cs)
    (ht : read? cs = some (t, r)) : read? (t.text ++ r') = some (t, r') := by
  have hlast := fun hslash => breaks_of_read? (c := '\\') ht hslash (by decide)
  simp only [read?, Option.or_eq_some_iff, Option.map_eq_some_iff, Prod.mk.injEq,
    Prod.exists] at ht
  obtain hpair | ⟨hpair, ht⟩ := ht
  · simp [read?, readPair?_respaced h hfeed hpair]
  obtain ⟨a, s, ha, rfl, rfl⟩ | ⟨hpath, ht⟩ := ht
  · obtain ⟨rfl, hne⟩ := readPath?_eq_some ha
    simp [read?, text, readPair?_eq_none_of_respaced h ha hpair,
      readPath?_append_of_breaks ha h.breaks]
  simp only [Option.map_eq_none_iff, readPath?_eq_none_iff] at hpath
  -- From here on the token does not begin with a name.
  have hother : ∀ {a : Text}, cs = a ++ r → a ≠ [] →
      readPair? (a ++ r') = none ∧ readPath? (a ++ r') = none := by
    rintro a rfl hne
    have hbracket := readBracket?_eq_none_of_respaced h hne hpath.2
    obtain ⟨c, a, rfl⟩ := List.exists_cons_of_ne_nil hne
    have hstops : Text.Stops isNameChar (c :: a ++ r') :=
      Text.stops_cons.2 (Text.stops_cons.1 hpath.1)
    exact ⟨readPair?_eq_none_of_stops hstops, readPath?_eq_none_iff.2 ⟨hstops, hbracket⟩⟩
  obtain ⟨a, s, ha, rfl, rfl⟩ | ⟨hgroup, ht⟩ := ht
  · obtain ⟨hcs, hne⟩ := readGroup?_eq_some ha
    obtain ⟨hpair', hpath'⟩ := hother hcs hne
    simp [read?, text, hpair', hpath', closing_readGroup? ha]
  rw [Option.map_eq_none_iff] at hgroup
  obtain ⟨a, s, ha, rfl, rfl⟩ | ⟨hquoted, ht⟩ := ht
  · obtain ⟨hcs, hne⟩ := readQuoted?_eq_some ha
    obtain ⟨hpair', hpath'⟩ := hother hcs hne
    rw [hcs] at hgroup
    simp [read?, text, hpair', hpath', readGroup?_eq_none_of_respaced h hne hgroup,
      closing_readQuoted? ha]
  rw [Option.map_eq_none_iff] at hquoted
  obtain ⟨a, s, ha, rfl, rfl⟩ := ht
  obtain ⟨hcs, hne⟩ := readWhile?_eq_some ha
  obtain ⟨hpair', hpath'⟩ := hother hcs hne
  rw [hcs] at hgroup hquoted hfeed
  have hrun : readRun? (a ++ r') = some (a, r') :=
    readWhile?_append hne (all_of_readWhile?_eq_some ha).1 h.breaks
  simp [read?, text, hpair', hpath', readGroup?_eq_none_of_respaced h hne hgroup,
    readQuoted?_eq_none_of_respaced h hne hlast hfeed hquoted, hrun]

end Respaced

end Token

open Token

/-- The tokens of a text, each after a space, stand for the text. -/
theorem respaced_tokenize (cs : Text) :
    Respaced cs ((tokenize cs).flatMap fun t => ' ' :: t) := by
  generalize hxs : tokenize cs = xs
  induction xs generalizing cs with
  | nil =>
      have hblank := all_isBlank_of_tokenize_eq_nil hxs
      have hvisible := visibleFrom_append_of_blank hblank []
      rw [List.append_nil] at hvisible
      exact ⟨Text.stops_nil _, Text.filter_of_blank hblank, hvisible⟩
  | cons x xs ih =>
      obtain ⟨w, s, r, t, rfl, hw, -, hread, rfl, hr⟩ := exists_read?_of_tokenize_eq_cons hxs
      obtain ⟨l, rfl, hlex⟩ := read?_eq_some hread
      have hrest := ih r hr
      have hspace : isBlank ' ' = true := rfl
      rw [List.flatMap_cons, List.cons_append]
      refine ⟨Text.stops_cons.2 rfl, ?_, ?_⟩
      · simp only [List.filter_append, List.filter_cons, Text.filter_of_blank hw, hspace,
          ← hlex.filter_text, hrest.nonblank]
        rfl
      · rw [visibleFrom_append_of_blank hw, visibleFrom_blank hspace, hlex.visibleFrom_eq,
          hrest.visible_append fun hslash => breaks_of_read? hread hslash (by decide)]

theorem tokenize_spaced_tokenize {cs : Text} (hfeed : ¬ ['\\', '\n'] <:+: cs) :
    tokenize ((tokenize cs).flatMap fun t => ' ' :: t) = tokenize cs := by
  generalize hxs : tokenize cs = xs
  induction xs generalizing cs with
  | nil => exact tokenize_nil
  | cons x xs ih =>
      obtain ⟨w, s, r, t, rfl, hw, hstart, hread, rfl, hr⟩ := exists_read?_of_tokenize_eq_cons hxs
      obtain ⟨l, rfl, hlex⟩ := read?_eq_some hread
      have hfeed' : ¬ ['\\', '\n'] <:+: l ++ r :=
        fun hin => hfeed (hin.trans (List.suffix_append w _).isInfix)
      have hrest : ¬ ['\\', '\n'] <:+: r :=
        fun hin => hfeed' (hin.trans (List.suffix_append l _).isInfix)
      have hagain := read?_respaced (hr ▸ respaced_tokenize r) hfeed' hread
      have hstops : Text.Stops isBlank (t.text ++ xs.flatMap fun t => ' ' :: t) := by
        obtain ⟨c, u, v, htext, rfl⟩ := hlex.exists_cons
        rw [htext]
        exact Text.stops_cons.2 (Text.stops_cons.1 hstart)
      rw [List.flatMap_cons, List.cons_append, tokenize_space_cons, tokenize_of_read? hstops hagain,
        ih hrest hr]

/-- Tokens that are joined with single spaces are read again one by one. -/
theorem tokenize_joinSpaced_tokenize {cs : Text} (hfeed : ¬ ['\\', '\n'] <:+: cs) :
    tokenize (Text.joinSpaced (tokenize cs)) = tokenize cs := by
  have hspaced := tokenize_spaced_tokenize hfeed
  cases hxs : tokenize cs with
  | nil => exact tokenize_nil
  | cons x xs =>
      rw [hxs, List.flatMap_cons, List.cons_append, tokenize_space_cons] at hspaced
      rw [Text.joinSpaced_cons, hspaced]

/-- The last tokens of a text, however many, are read again one by one when single spaces join them.
What stood before them does not matter, so that leaving it out opens or closes nothing. -/
theorem tokenize_joinSpaced_of_suffix {cs : Text} {ts : List Text}
    (hfeed : ¬ ['\\', '\n'] <:+: cs) (hts : ts <:+ tokenize cs) :
    tokenize (Text.joinSpaced ts) = ts := by
  obtain ⟨r, hr, rfl⟩ := exists_tokenize_eq_of_suffix hts
  exact tokenize_joinSpaced_tokenize fun hin => hfeed (hin.trans hr.isInfix)

/-- Nothing that stays open finds an end: a parenthesis, a bracket and two quotes, of which one has
a backslash before the white space that is replaced. -/
theorem tokenize_joinSpaced_of_suffix_open :
    tokenize "h \"x' (a\n[b \\\"c\\\t'd k\t=  (e".toList =
      ["h", "\"x'", "(a", "[b", "\\\"c\\", "'d", "k=(e"].map String.toList ∧
    tokenize (Text.joinSpaced (["(a", "[b", "\\\"c\\", "'d", "k=(e"].map String.toList)) =
      ["(a", "[b", "\\\"c\\", "'d", "k=(e"].map String.toList := by
  have htokens : tokenize "h \"x' (a\n[b \\\"c\\\t'd k\t=  (e".toList =
      ["h", "\"x'", "(a", "[b", "\\\"c\\", "'d", "k=(e"].map String.toList := by
    decide +kernel
  have hsuffix : ["(a", "[b", "\\\"c\\", "'d", "k=(e"].map String.toList <:+
      tokenize "h \"x' (a\n[b \\\"c\\\t'd k\t=  (e".toList :=
    htokens ▸ ⟨["h", "\"x'"].map String.toList, rfl⟩
  exact ⟨htokens, tokenize_joinSpaced_of_suffix (by decide +kernel) hsuffix⟩

end MustachePath
