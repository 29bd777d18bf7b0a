import MustachePath.Text.WordChar

/-!
# Tokens of a tag

The text of a tag is read from left to right, white space between tokens is skipped, and at every
place the first kind of token that fits is taken: a `key=value` pair, a path with its brackets, a
group in parentheses, a quoted literal, or else the characters up to the next white space. Each
reader divides its text (`readPath?_eq_some` and its like), so no character of a token is lost.
-/

namespace MustachePath

/-- The characters of names: word characters, the at sign, the dollar sign and the hyphen. -/
def isNameChar (c : Char) : Bool := c == '@' || c == '$' || c == '-' || isWordChar c

/-- The kinds of tokens, with their text. -/
inductive Token where
  | pair (key value : Text)
  | path (text : Text)
  | group (text : Text)
  | quoted (text : Text)
  | run (text : Text)
deriving DecidableEq, Repr

namespace Token

/-- A token as text. A pair is written without white space around its equals sign. -/
def text : Token → Text
  | pair key value => key ++ '=' :: value
  | path t => t
  | group t => t
  | quoted t => t
  | run t => t

/-- A reader divides a text into a part at the front and the rest, or finds no such part. -/
abbrev Reader := Text → Option (Text × Text)

/-- Puts a text before what a reader found. -/
def before (s : Text) (p : Text × Text) : Text × Text := (s ++ p.1, p.2)

/-- The longest part at the front whose characters all pass a test, one character at least. -/
def readWhile? (test : Char → Bool) : Reader := fun cs =>
  if cs.takeWhile test = [] then none else some (cs.takeWhile test, cs.dropWhile test)

/-- A name. -/
def readName? : Reader := readWhile? isNameChar

/-- A run of characters up to the next white space. -/
def readRun? : Reader := readWhile? fun c => !isBlank c

/-- The part up to the first closing character, provided no opening one comes before. -/
def readUntil? (opening closing : Char) : Reader
  | [] => none
  | c :: cs =>
    if c = closing then some ([c], cs)
    else if c = opening then none
    else (readUntil? opening closing cs).map (before [c])

/-- Brackets around a text without brackets. -/
def readBracket? : Reader
  | '[' :: cs => (readUntil? '[' ']' cs).map (before ['['])
  | _ => none

/-- Parentheses around a text without parentheses. -/
def readGroup? : Reader
  | '(' :: cs => (readUntil? '(' ')' cs).map (before ['('])
  | _ => none

/-- The part up to the closing quote. A backslash takes the next character with it, which must not
be a line feed. -/
def readQuoteEnd? (quote : Char) : Reader
  | [] => none
  | '\\' :: c :: cs =>
    if c = '\n' then none else (readQuoteEnd? quote cs).map (before ['\\', c])
  | c :: cs =>
    if c = quote then some ([c], cs)
    else if c = '\\' then none
    else (readQuoteEnd? quote cs).map (before [c])

/-- A literal between double or single quotes. -/
def readQuoted? : Reader
  | '"' :: cs => (readQuoteEnd? '"' cs).map (before ['"'])
  | '\'' :: cs => (readQuoteEnd? '\'' cs).map (before ['\''])
  | _ => none

/-- A further step of a path: a dot and a name, a dot and brackets, or brackets alone. -/
def readStep? : Reader
  | '.' :: cs => ((readName? cs).or (readBracket? cs)).map (before ['.'])
  | cs => readBracket? cs

theorem readWhile?_eq_some {test : Char → Bool} {cs a r : Text}
    (h : readWhile? test cs = some (a, r)) : cs = a ++ r ∧ a ≠ [] := by
  unfold readWhile? at h
  split at h
  · simp at h
  · rename_i hne
    simp only [Option.some.injEq, Prod.mk.injEq] at h
    obtain ⟨rfl, rfl⟩ := h
    exact ⟨List.takeWhile_append_dropWhile.symm, hne⟩

theorem readUntil?_eq_some {o c : Char} {cs a r : Text}
    (h : readUntil? o c cs = some (a, r)) : cs = a ++ r ∧ a ≠ [] := by
  induction cs generalizing a with
  | nil => simp [readUntil?] at h
  | cons d cs ih =>
    simp only [readUntil?] at h
    split at h
    · simp only [Option.some.injEq, Prod.mk.injEq] at h
      obtain ⟨rfl, rfl⟩ := h
      simp
    · split at h
      · simp at h
      · simp only [Option.map_eq_some_iff, before, Prod.mk.injEq, Prod.exists] at h
        obtain ⟨b, s, hb, rfl, rfl⟩ := h
        simp [(ih hb).1]

theorem readBracket?_eq_some {cs a r : Text} (h : readBracket? cs = some (a, r)) :
    cs = a ++ r ∧ a ≠ [] := by
  unfold readBracket? at h
  split at h
  · simp only [Option.map_eq_some_iff, before, Prod.mk.injEq, Prod.exists] at h
    obtain ⟨b, s, hb, rfl, rfl⟩ := h
    simp [(readUntil?_eq_some hb).1]
  · simp at h

theorem readGroup?_eq_some {cs a r : Text} (h : readGroup? cs = some (a, r)) :
    cs = a ++ r ∧ a ≠ [] := by
  unfold readGroup? at h
  split at h
  · simp only [Option.map_eq_some_iff, before, Prod.mk.injEq, Prod.exists] at h
    obtain ⟨b, s, hb, rfl, rfl⟩ := h
    simp [(readUntil?_eq_some hb).1]
  · simp at h

theorem readQuoteEnd?_eq_some {q : Char} {cs a r : Text}
    (h : readQuoteEnd? q cs = some (a, r)) : cs = a ++ r ∧ a ≠ [] := by
  fun_induction readQuoteEnd? q cs generalizing a with
  | case1 => simp at h
  | case2 => simp at h
  | case3 c cs hc ih =>
    simp only [Option.map_eq_some_iff, before, Prod.mk.injEq, Prod.exists] at h
    obtain ⟨b, s, hb, rfl, rfl⟩ := h
    simp [(ih hb).1]
  | case4 =>
    simp only [Option.some.injEq, Prod.mk.injEq] at h
    obtain ⟨rfl, rfl⟩ := h
    simp
  | case5 => simp at h
  | case6 c cs _ _ _ ih =>
    simp only [Option.map_eq_some_iff, before, Prod.mk.injEq, Prod.exists] at h
    obtain ⟨b, s, hb, rfl, rfl⟩ := h
    simp [(ih hb).1]

theorem readQuoted?_eq_some {cs a r : Text} (h : readQuoted? cs = some (a, r)) :
    cs = a ++ r ∧ a ≠ [] := by
  unfold readQuoted? at h
  split at h
  · simp only [Option.map_eq_some_iff, before, Prod.mk.injEq, Prod.exists] at h
    obtain ⟨b, s, hb, rfl, rfl⟩ := h
    simp [(readQuoteEnd?_eq_some hb).1]
  · simp only [Option.map_eq_some_iff, before, Prod.mk.injEq, Prod.exists] at h
    obtain ⟨b, s, hb, rfl, rfl⟩ := h
    simp [(readQuoteEnd?_eq_some hb).1]
  · simp at h

theorem readStep?_eq_some {cs a r : Text} (h : readStep? cs = some (a, r)) :
    cs = a ++ r ∧ a ≠ [] := by
  unfold readStep? at h
  split at h
  · simp only [Option.map_eq_some_iff, before, Prod.mk.injEq, Prod.exists,
      Option.or_eq_some_iff] at h
    obtain ⟨b, s, hb, rfl, rfl⟩ := h
    rcases hb with hb | ⟨_, hb⟩
    · simp [(readWhile?_eq_some hb).1]
    · simp [(readBracket?_eq_some hb).1]
  · exact readBracket?_eq_some h

/-- All further steps of a path, and what comes after them. -/
def readSteps (cs : Text) : Text × Text :=
  match _h : readStep? cs with
  | some (a, r) => before a (readSteps r)
  | none => ([], cs)
termination_by cs.length
decreasing_by
  obtain ⟨rfl, ha⟩ := readStep?_eq_some _h
  have := List.length_pos_iff.2 ha
  simp only [List.length_append]
  omega

theorem readSteps_append (cs : Text) : (readSteps cs).1 ++ (readSteps cs).2 = cs := by
  fun_induction readSteps cs with
  | case1 cs a r h ih =>
    simp only [before, List.append_assoc, ih]
    exact (readStep?_eq_some h).1.symm
  | case2 cs h => simp

/-- A path: a name or brackets, and then its further steps. -/
def readPath? : Reader := fun cs =>
  ((readName? cs).or (readBracket? cs)).map fun p => before p.1 (readSteps p.2)

theorem readPath?_eq_some {cs a r : Text} (h : readPath? cs = some (a, r)) :
    cs = a ++ r ∧ a ≠ [] := by
  simp only [readPath?, Option.map_eq_some_iff, Option.or_eq_some_iff, before, Prod.mk.injEq,
    Prod.exists] at h
  obtain ⟨b, s, hb, rfl, rfl⟩ := h
  have hbs : cs = b ++ s ∧ b ≠ [] := by
    rcases hb with hb | ⟨_, hb⟩
    · exact readWhile?_eq_some hb
    · exact readBracket?_eq_some hb
  refine ⟨?_, by simp [hbs.2]⟩
  rw [List.append_assoc, readSteps_append]
  exact hbs.1

/-- The value of a pair: a quoted literal, a group, or a run of characters. -/
def readValue? : Reader := fun cs => (readQuoted? cs).or ((readGroup? cs).or (readRun? cs))

theorem readValue?_eq_some {cs a r : Text} (h : readValue? cs = some (a, r)) :
    cs = a ++ r ∧ a ≠ [] := by
  simp only [readValue?, Option.or_eq_some_iff] at h
  rcases h with h | ⟨_, h | ⟨_, h⟩⟩
  · exact readQuoted?_eq_some h
  · exact readGroup?_eq_some h
  · exact readWhile?_eq_some h

/-- A pair: a name, an equals sign and a value, with white space allowed around the sign. -/
def readPair? (cs : Text) : Option (Token × Text) :=
  match readName? cs with
  | none => none
  | some (key, r) =>
    match Text.trimStart r with
    | '=' :: r => (readValue? (Text.trimStart r)).map fun p => (pair key p.1, p.2)
    | _ => none

theorem append_trimStart (cs : Text) :
    ∃ w : Text, cs = w ++ Text.trimStart cs ∧ w.all isBlank = true :=
  ⟨cs.takeWhile isBlank, List.takeWhile_append_dropWhile.symm, List.all_takeWhile⟩

theorem readPair?_eq_some {cs r : Text} {t : Token} (h : readPair? cs = some (t, r)) :
    ∃ key v w w' : Text, w.all isBlank = true ∧ w'.all isBlank = true ∧ key ≠ [] ∧ v ≠ [] ∧
      t = pair key v ∧ cs = key ++ w ++ '=' :: w' ++ v ++ r := by
  unfold readPair? at h
  split at h
  · simp at h
  · rename_i key s hk
    split at h
    · rename_i s' hs
      simp only [Option.map_eq_some_iff, Prod.mk.injEq, Prod.exists] at h
      obtain ⟨v, r', hv, rfl, rfl⟩ := h
      obtain ⟨w, hw, hwb⟩ := append_trimStart s
      obtain ⟨w', hw', hwb'⟩ := append_trimStart s'
      obtain ⟨hc, hne⟩ := readWhile?_eq_some hk
      obtain ⟨hd, hvne⟩ := readValue?_eq_some hv
      refine ⟨key, v, w, w', hwb, hwb', hne, hvne, rfl, ?_⟩
      rw [hs] at hw
      rw [hd] at hw'
      rw [hc, hw, hw']
      simp
    · simp at h

/-- The token at the front of a text, and what comes after it. -/
def read? (cs : Text) : Option (Token × Text) :=
  (readPair? cs).or <|
  ((readPath? cs).map fun p => (path p.1, p.2)).or <|
  ((readGroup? cs).map fun p => (group p.1, p.2)).or <|
  ((readQuoted? cs).map fun p => (quoted p.1, p.2)).or <|
  (readRun? cs).map fun p => (run p.1, p.2)

theorem length_lt_of_read?_eq_some {cs r : Text} {t : Token} (h : read? cs = some (t, r)) :
    r.length < cs.length := by
  have key : ∀ {a : Text}, cs = a ++ r ∧ a ≠ [] → r.length < cs.length := by
    rintro a ⟨rfl, ha⟩
    have := List.length_pos_iff.2 ha
    simp only [List.length_append]
    omega
  simp only [read?, Option.or_eq_some_iff, Option.map_eq_some_iff, Prod.mk.injEq,
    Prod.exists] at h
  rcases h with h | ⟨_, h | ⟨_, h | ⟨_, h | ⟨_, h⟩⟩⟩⟩
  · obtain ⟨k, v, w, w', _, _, _, _, _, rfl⟩ := readPair?_eq_some h
    simp
    omega
  · obtain ⟨a, s, hs, _, rfl⟩ := h
    exact key (readPath?_eq_some hs)
  · obtain ⟨a, s, hs, _, rfl⟩ := h
    exact key (readGroup?_eq_some hs)
  · obtain ⟨a, s, hs, _, rfl⟩ := h
    exact key (readQuoted?_eq_some hs)
  · obtain ⟨a, s, hs, _, rfl⟩ := h
    exact key (readWhile?_eq_some hs)

theorem length_trimStart_le (cs : Text) : (Text.trimStart cs).length ≤ cs.length :=
  (List.dropWhile_sublist isBlank).length_le

/-- The tokens of a text with their kinds. -/
def readAll (cs : Text) : List Token :=
  match _h : read? (Text.trimStart cs) with
  | some (t, r) => t :: readAll r
  | none => []
termination_by cs.length
decreasing_by
  exact Nat.lt_of_lt_of_le (length_lt_of_read?_eq_some _h) (length_trimStart_le cs)

end Token

/-- The tokens of a text, as texts. -/
def tokenize (cs : Text) : List Text := (Token.readAll cs).map Token.text

/-- The key of a token that has the shape of a pair: a name before an equals sign. -/
def pairKey? (token : Text) : Option Text :=
  match Token.readName? token with
  | some (key, '=' :: _) => some key
  | _ => none

/-- Whether a token has the shape of a pair. -/
def isPairShaped (token : Text) : Bool := (pairKey? token).isSome

end MustachePath
