import MustachePath.Proofs.Tokens

/-!
# The shape of pairs

Reading decides by precedence whether a token is a pair, and the shape of a token is seen in its
text alone. The two agree: no other token looks like a pair (`pairKey?_eq_none_of_read?`), and a
pair is divided at its first equals sign into the key and the value that were read
(`isPairShaped_iff_readPair?`).
-/

namespace MustachePath

namespace Token

/-- Whether reading the tokens of a text comes to a place, what is left of the text there, at which
it reads a given token and leaves a given rest. -/
inductive ReadsAt (t : Token) (place rest : Text) : Text → Prop
  | first {cs : Text} (hplace : Text.trimStart cs = place) (h : read? place = some (t, rest)) :
      ReadsAt t place rest cs
  | later {cs r : Text} {u : Token} (h : read? (Text.trimStart cs) = some (u, r))
      (tail : ReadsAt t place rest r) : ReadsAt t place rest cs

theorem ReadsAt.read?_eq {t : Token} {place rest cs : Text} (h : ReadsAt t place rest cs) :
    read? place = some (t, rest) := by
  induction h with
  | first hplace h => exact h
  | later h tail ih => exact ih

/-- The tokens of a text are those that are read at some place. -/
theorem mem_readAll_iff {t : Token} {cs : Text} :
    t ∈ readAll cs ↔ ∃ place rest, ReadsAt t place rest cs := by
  constructor
  · intro h
    fun_induction readAll cs with
    | case1 cs u r hread ih =>
        obtain rfl | h := List.mem_cons.1 h
        · exact ⟨_, r, .first rfl hread⟩
        · obtain ⟨place, rest, htail⟩ := ih h
          exact ⟨place, rest, .later hread htail⟩
    | case2 cs hread => simp at h
  · rintro ⟨place, rest, h⟩
    induction h with
    | first hplace h =>
        rw [readAll_eq_match, hplace, h]
        exact List.mem_cons_self
    | later h tail ih =>
        rw [readAll_eq_match, h]
        exact List.mem_cons_of_mem _ ih

theorem exists_pair_of_readPair? {cs r : Text} {t : Token} (h : readPair? cs = some (t, r)) :
    ∃ key value, IsName key ∧ t = .pair key value := by
  unfold readPair? at h
  split at h
  · simp at h
  · rename_i key s hkey
    split at h
    · simp only [Option.map_eq_some_iff, Prod.mk.injEq] at h
      obtain ⟨p, -, rfl, -⟩ := h
      exact ⟨key, p.1, isName_of_readName?_eq_some hkey, rfl⟩
    · simp at h

/-- Where a pair can be read, it is read. -/
theorem read?_of_readPair? {cs : Text} {p : Token × Text} (h : readPair? cs = some p) :
    read? cs = some p := by
  rw [read?, h, Option.some_or]

/-- Where no pair can be read, no token that looks like one is read. -/
theorem pairKey?_eq_none_of_read? {cs r : Text} {t : Token} (hpair : readPair? cs = none)
    (h : read? cs = some (t, r)) : pairKey? t.text = none := by
  obtain ⟨l, -, hlexeme⟩ := read?_eq_some h
  cases hlexeme with
  | other hne hkey => exact hkey
  | pair => simp [read?, hpair] at h

/-- Whether a token has the given key, and its first equals sign stands between this key and the
given value. -/
structure DividesInto (token key value : Text) : Prop where
  key_eq : pairKey? token = some key
  front_eq : token.takeWhile (· ≠ '=') = key
  back_eq : token.dropWhile (· ≠ '=') = '=' :: value

theorem dividesInto_pair {key : Text} (hkey : IsName key) (value : Text) :
    DividesInto (pair key value).text key value := by
  have hne : ∀ c ∈ key, decide (c ≠ '=') = true := by
    intro c hc
    rw [decide_eq_true_eq]
    rintro rfl
    exact absurd (hkey.2 '=' hc) (by decide)
  constructor
  · exact pairKey?_append hkey value
  · rw [text, List.takeWhile_append_of_pos hne]
    simp
  · rw [text, List.dropWhile_append_of_pos hne]
    simp

variable {place rest : Text} {t : Token}

theorem isPairShaped_iff_of_read? (h : read? place = some (t, rest)) :
    isPairShaped t.text = true ↔ (readPair? place).isSome = true := by
  cases hpair : readPair? place with
  | none => simp [isPairShaped, pairKey?_eq_none_of_read? hpair h]
  | some p =>
      obtain rfl : p = (t, rest) := Option.some.inj ((read?_of_readPair? hpair).symm.trans h)
      obtain ⟨key, value, hkey, rfl⟩ := exists_pair_of_readPair? hpair
      simp [isPairShaped, (dividesInto_pair hkey value).key_eq]

theorem dividesInto_of_readPair? {key value : Text}
    (h : readPair? place = some (.pair key value, rest)) :
    DividesInto (pair key value).text key value := by
  obtain ⟨key', value', hkey, hpair⟩ := exists_pair_of_readPair? h
  obtain ⟨rfl, rfl⟩ := Token.pair.inj hpair
  exact dividesInto_pair hkey value

theorem exists_blanks_of_readPair? {key value : Text}
    (h : readPair? place = some (.pair key value, rest)) :
    ∃ w w' : Text, w.all isBlank = true ∧ w'.all isBlank = true ∧
      place = key ++ w ++ '=' :: w' ++ value ++ rest := by
  obtain ⟨key', value', w, w', hw, hw', -, -, hpair, hplace⟩ := readPair?_eq_some h
  obtain ⟨rfl, rfl⟩ := Token.pair.inj hpair
  exact ⟨w, w', hw, hw', hplace⟩

end Token

open Token

/-- The tokens of a text that look like pairs are those that were read as pairs. What stands before
the first equals sign of such a token is the key that was read, and what stands behind it the
value. -/
theorem isPairShaped_iff_readPair? (body : Text) :
    (∀ k, k ∈ tokenize body ↔ ∃ t place rest, ReadsAt t place rest body ∧ t.text = k) ∧
    ∀ t place rest, ReadsAt t place rest body →
      (isPairShaped t.text = true ↔ (readPair? place).isSome = true) ∧
      ∀ key value r, readPair? place = some (.pair key value, r) →
        t = .pair key value ∧ r = rest ∧ DividesInto t.text key value ∧
          ∃ w w' : Text, w.all isBlank = true ∧ w'.all isBlank = true ∧
            place = key ++ w ++ '=' :: w' ++ value ++ rest := by
  refine ⟨fun k => ?_, fun t place rest hreads => ?_⟩
  · rw [tokenize, List.mem_map]
    constructor
    · rintro ⟨t, ht, rfl⟩
      obtain ⟨place, rest, hreads⟩ := mem_readAll_iff.1 ht
      exact ⟨t, place, rest, hreads, rfl⟩
    · rintro ⟨t, place, rest, hreads, rfl⟩
      exact ⟨t, mem_readAll_iff.2 ⟨place, rest, hreads⟩, rfl⟩
  · have hread := hreads.read?_eq
    refine ⟨isPairShaped_iff_of_read? hread, fun key value r hpair => ?_⟩
    obtain ⟨rfl, rfl⟩ := Prod.mk.inj (Option.some.inj ((read?_of_readPair? hpair).symm.trans hread))
    exact ⟨rfl, rfl, dividesInto_of_readPair? hpair, exists_blanks_of_readPair? hpair⟩

end MustachePath
