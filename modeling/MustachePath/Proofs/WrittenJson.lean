import Mathlib.Data.List.Forall2
import MustachePath.Json.Reader
import MustachePath.Json.Writer
import MustachePath.Proofs.PathReading

/-!
# Written JSON is read back

A written value is divided into its own lexemes, whatever follows it, unless a number could go on
there (`lexes_write`). These lexemes hand the value to the container that is open around it
(`builds_of_readable`). So a value is read back from its text if its numbers are integers of 64 bits
and it is not nested too deep (`parse?_write`).
-/

namespace MustachePath.Json

section Numbers

/-- Whether a number goes on with a character. -/
def continuesNumber (c : Char) : Bool := Text.isAsciiDigit c || c == '.' || c == 'e' || c == 'E'

/-- Whether an integer has 64 bits, with or without a sign. -/
def Is64Bit (n : Int) : Prop := -(Nat.pow 2 63 : Nat) ≤ n ∧ n < (Nat.pow 2 64 : Nat)

variable {rest : Text}

theorem readDigits?_append {ds : Text} (hne : ds ≠ []) (hdigits : ds.all Text.isAsciiDigit = true)
    (hrest : Text.Stops Text.isAsciiDigit rest) : readDigits? (ds ++ rest) = some (ds, rest) := by
  have hall := List.all_eq_true.1 hdigits
  have htake : (ds ++ rest).takeWhile Text.isAsciiDigit = ds := by
    rw [List.takeWhile_append_of_pos hall, Text.takeWhile_eq_nil_of_stops hrest, List.append_nil]
  have hdrop : (ds ++ rest).dropWhile Text.isAsciiDigit = rest := by
    rw [List.dropWhile_append_of_pos hall, Text.dropWhile_eq_self_of_stops hrest]
  simp only [readDigits?, htake, hdrop, if_neg hne]

theorem exists_ofNat_eq_cons (n : Nat) :
    ∃ d ds, Text.ofNat n = d :: ds ∧ d.isDigit = true := by
  obtain ⟨d, ds, hds⟩ := List.exists_cons_of_ne_nil (Nat.toDigits_ne_nil (n := n) (b := 10))
  exact ⟨d, ds, hds, isDigit_ofNat (n := n) (by rw [Text.ofNat, hds]; simp)⟩

/-- No number but zero is written with a zero at the front. -/
theorem length_ofNat_of_head? {n : Nat} (h : (Text.ofNat n).head? = some '0') :
    (Text.ofNat n).length = 1 := by
  induction n using Nat.strongRecOn with
  | ind n ih =>
      rw [Text.ofNat, Nat.toDigits_eq_if (by decide)] at h ⊢
      split
      · rfl
      · rename_i hlarge
        rw [if_neg hlarge] at h
        obtain ⟨d, ds, hfront, -⟩ := exists_ofNat_eq_cons (n / 10)
        rw [← Text.ofNat, hfront] at h
        obtain rfl : d = '0' := Option.some.inj h
        have hlength := ih (n / 10) (by omega) (by rw [hfront]; rfl)
        rw [hfront, List.length_cons, Nat.add_eq_right, List.length_eq_zero_iff] at hlength
        have hvalue := decimalValue_ofNat (n / 10)
        rw [hfront, hlength] at hvalue
        have hzero : 0 = n / 10 := hvalue
        omega

theorem readUnsigned?_ofNat (negative : Bool) (n : Nat) (hrest : Text.Stops continuesNumber rest) :
    readUnsigned? negative (Text.ofNat n ++ rest) =
      (integerNumber? negative (Text.ofNat n)).map fun x => (x, rest) := by
  have hdigit : Text.Stops Text.isAsciiDigit rest := by
    intro c hc
    have hstop := hrest c hc
    simp only [continuesNumber, Bool.or_eq_false_iff] at hstop
    exact hstop.1.1.1
  have hread : readDigits? (Text.ofNat n ++ rest) = some (Text.ofNat n, rest) :=
    readDigits?_append Nat.toDigits_ne_nil (all_isAsciiDigit_ofNat n) hdigit
  have hzero : ¬ ((Text.ofNat n).head? = some '0' ∧ (Text.ofNat n).length ≠ 1) :=
    fun h => h.2 (length_ofNat_of_head? h.1)
  have hfraction : readFraction? rest = some (none, rest) := by
    unfold readFraction?
    split
    · exact absurd (hrest '.' rfl) (by decide)
    · rfl
  have hexponent : readExponent? rest = some (none, rest) := by
    unfold readExponent?
    split
    · rfl
    · rename_i c cs
      rw [if_neg]
      rintro (rfl | rfl)
      · exact absurd (hrest 'e' rfl) (by decide)
      · exact absurd (hrest 'E' rfl) (by decide)
  simp only [readUnsigned?, hread, hzero, hfraction, hexponent, bind, Option.bind, if_false, pure,
    Option.isNone_none, Bool.and_self, if_true]
  cases integerNumber? negative (Text.ofNat n) <;> rfl

/-- A number without a sign before it is read as such. -/
theorem readNumber?_ofNat (n : Nat) :
    readNumber? (Text.ofNat n ++ rest) = readUnsigned? false (Text.ofNat n ++ rest) := by
  obtain ⟨d, ds, hds, hd⟩ := exists_ofNat_eq_cons n
  have hminus : d ≠ '-' := by
    rintro rfl
    exact absurd hd (by decide)
  rw [hds, List.cons_append]
  unfold readNumber?
  split
  · rename_i h
    exact absurd (List.cons.inj h).1 hminus
  · rfl

/-- An integer is read back. -/
theorem readNumber?_write {n : Int} (hn : Is64Bit n) (hrest : Text.Stops continuesNumber rest) :
    readNumber? (writeNumber (.integer n) ++ rest) = some (.integer n, rest) := by
  have hvalue := decimalValue_ofNat n.natAbs
  obtain ⟨hlow, hhigh⟩ := hn
  by_cases hneg : n < 0
  · have habs : 0 < n.natAbs ∧ n.natAbs ≤ Nat.pow 2 63 := by omega
    have hint : integerNumber? true (Text.ofNat n.natAbs) = some (.integer n) := by
      have hsign : -(n.natAbs : Int) = n := by omega
      simp only [integerNumber?, hvalue, if_true, if_pos habs, hsign]
    rw [writeNumber, if_pos hneg]
    exact (readUnsigned?_ofNat true n.natAbs hrest).trans (by rw [hint]; rfl)
  · have habs : n.natAbs < Nat.pow 2 64 := by omega
    have hint : integerNumber? false (Text.ofNat n.natAbs) = some (.integer n) := by
      have hsign : (n.natAbs : Int) = n := by omega
      simp only [integerNumber?, hvalue, Bool.false_eq_true, if_false, if_pos habs, hsign]
    rw [writeNumber, if_neg hneg, List.nil_append]
    rw [readNumber?_ofNat, readUnsigned?_ofNat false n.natAbs hrest, hint]
    rfl

end Numbers

section Strings

theorem readString?_escaped {c d : Char} (hd : escaped? d = some c) (cs : Text) :
    readString? ('\\' :: d :: cs) = (readString? cs).map fun p => (c :: p.1, p.2) := by
  have hletter : d ≠ 'u' := by
    rintro rfl
    simp [escaped?] at hd
  rw [readString?]
  · rw [hd, Option.bind_some]
  · intro _ _ _ _ _ h
    exact absurd h hletter

theorem readString?_plain {c : Char} (hquote : c ≠ '"') (hslash : c ≠ '\\') (hprint : 32 ≤ c.toNat)
    (cs : Text) : readString? (c :: cs) = (readString? cs).map fun p => (c :: p.1, p.2) := by
  rw [readString?]
  · rw [if_neg (not_or.2 ⟨hslash, Nat.not_lt.2 hprint⟩)]
  · exact hquote
  · intro _ _ _ _ _ h
    exact absurd h hslash
  · intro _ _ h
    exact absurd h hslash

theorem hexDigit?_digitChar : ∀ d < 16, hexDigit? (Nat.digitChar d) = some d := by
  decide

/-- A control is read back from its number. -/
theorem readString?_control {c : Char} (hc : c.toNat < 32) (cs : Text) :
    readString? ('\\' :: 'u' :: '0' :: '0' :: Nat.digitChar (c.toNat / 16) ::
        Nat.digitChar (c.toNat % 16) :: cs) =
      (readString? cs).map fun p => (c :: p.1, p.2) := by
  have hhigh := hexDigit?_digitChar (c.toNat / 16) (by omega)
  have hlow := hexDigit?_digitChar (c.toNat % 16) (by omega)
  have hzero : hexDigit? '0' = some 0 := rfl
  have hnumber : hexValue? ['0', '0', Nat.digitChar (c.toNat / 16), Nat.digitChar (c.toNat % 16)] =
      some c.toNat := by
    simp only [hexValue?, List.foldlM_cons, List.foldlM_nil, hzero, hhigh, hlow, Option.map_some,
      Option.bind_eq_bind, Option.bind_some, Option.pure_def, Option.some.injEq]
    omega
  have hlowSurrogate : isLowSurrogate c.toNat = false := by
    simp [isLowSurrogate]
    omega
  have hhighSurrogate : isHighSurrogate c.toNat = false := by
    simp [isHighSurrogate]
    omega
  rw [readString?, hnumber]
  simp [hlowSurrogate, hhighSurrogate]

/-- A character is read back. -/
theorem readString?_writeChar (c : Char) (cs : Text) :
    readString? (writeChar c ++ cs) = (readString? cs).map fun p => (c :: p.1, p.2) := by
  unfold writeChar
  split
  · rename_i h
    exact readString?_escaped (by rw [h]; rfl) cs
  split
  · rename_i h
    exact readString?_escaped (by rw [h]; rfl) cs
  split
  · rename_i h
    exact readString?_escaped (by rw [h]; rfl) cs
  split
  · rename_i h
    exact readString?_escaped (by rw [h]; rfl) cs
  split
  · rename_i h
    exact readString?_escaped (by rw [h]; rfl) cs
  split
  · rename_i h
    exact readString?_escaped (by rw [← Char.ofNat_toNat c, h]; rfl) cs
  split
  · rename_i h
    exact readString?_escaped (by rw [← Char.ofNat_toNat c, h]; rfl) cs
  split
  · rename_i h
    exact readString?_control h cs
  · rename_i hquote hslash _ _ _ _ _ hprint
    exact readString?_plain hquote hslash (by omega) cs

/-- A string is read back up to its closing quote, whatever follows. -/
theorem readString?_write (t rest : Text) :
    readString? (t.flatMap writeChar ++ '"' :: rest) = some (t, rest) := by
  induction t with
  | nil => rw [List.flatMap_nil, List.nil_append, readString?]
  | cons c t ih =>
      rw [List.flatMap_cons, List.append_assoc, readString?_writeChar, ih, Option.map_some]

end Strings

section Lexemes

/-- Lists of lexemes one after another with commas between them. -/
def separated : List (List Lexeme) → List Lexeme
  | [] => []
  | [l] => l
  | l :: m :: ms => l ++ .comma :: separated (m :: ms)

mutual

/-- The lexemes of a written value. -/
def lexemes : Json → List Lexeme
  | null => [.scalar null]
  | bool b => [.scalar (bool b)]
  | number n => [.scalar (number n)]
  | string t => [.string t]
  | array items => .openArray :: (separated (itemLexemes items) ++ [.closeArray])
  | object members => .openObject :: (separated (memberLexemes members) ++ [.closeObject])

/-- The lexemes of values, one by one. -/
def itemLexemes : List Json → List (List Lexeme)
  | [] => []
  | v :: vs => lexemes v :: itemLexemes vs

/-- The lexemes of the members of an object, one by one. -/
def memberLexemes : List (Text × Json) → List (List Lexeme)
  | [] => []
  | (k, v) :: ms => (.string k :: .colon :: lexemes v) :: memberLexemes ms

end

/-- Whether a text is divided into the given lexemes, whatever follows it. -/
def Lexes (t : Text) (ls : List Lexeme) : Prop :=
  ∀ rest, Text.Stops continuesNumber rest → lexemes? (t ++ rest) = (lexemes? rest).map (ls ++ ·)

/-- Whether a character is a lexeme of its own and ends a number before it. -/
structure IsSign (c : Char) (l : Lexeme) : Prop where
  space : isSpace c = false
  stops : continuesNumber c = false
  read : ∀ cs, readLexeme? (c :: cs) = some (l, cs)

theorem isSign_openArray : IsSign '[' .openArray := ⟨rfl, rfl, fun _ => rfl⟩

theorem isSign_closeArray : IsSign ']' .closeArray := ⟨rfl, rfl, fun _ => rfl⟩

theorem isSign_openObject : IsSign '{' .openObject := ⟨rfl, rfl, fun _ => rfl⟩

theorem isSign_closeObject : IsSign '}' .closeObject := ⟨rfl, rfl, fun _ => rfl⟩

theorem isSign_comma : IsSign ',' .comma := ⟨rfl, rfl, fun _ => rfl⟩

theorem isSign_colon : IsSign ':' .colon := ⟨rfl, rfl, fun _ => rfl⟩

/-- The first lexeme of a text comes before those of what is left after it. -/
theorem lexemes?_cons {c : Char} {cs after : Text} {l : Lexeme} (hspace : isSpace c = false)
    (hread : readLexeme? (c :: cs) = some (l, after)) (hlength : after.length ≤ cs.length) :
    lexemes? (c :: cs) = (lexemes? after).map (l :: ·) := by
  have hdrop : (c :: cs).dropWhile isSpace = c :: cs := by
    rw [List.dropWhile_cons_of_neg (by simp [hspace])]
  rw [lexemes?, hdrop]
  simp only [hread, List.length_cons, Nat.lt_succ_of_le hlength, if_true]

theorem lexes_nil : Lexes [] [] := by
  intro rest _
  rw [List.nil_append]
  exact (Option.map_id_apply).symm

theorem Lexes.cons {c : Char} {l : Lexeme} {t : Text} {ls : List Lexeme} (hc : IsSign c l)
    (h : Lexes t ls) : Lexes (c :: t) (l :: ls) := by
  intro rest hrest
  rw [List.cons_append, lexemes?_cons hc.space (hc.read _) (Nat.le_refl _), h rest hrest,
    Option.map_map]
  rfl

theorem Lexes.append {c : Char} {l : Lexeme} {t u : Text} {ls ms : List Lexeme} (ht : Lexes t ls)
    (hc : IsSign c l) (hu : Lexes u ms) : Lexes (t ++ c :: u) (ls ++ l :: ms) := by
  intro rest hrest
  rw [List.append_assoc, List.cons_append, ht _ (Text.stops_cons.2 hc.stops), ← List.cons_append,
    (hu.cons hc) rest hrest, Option.map_map]
  congr 1
  funext ks
  exact (List.append_assoc _ _ _).symm

/-- Texts with commas between them are divided into their lexemes with commas between them. -/
theorem Lexes.join {ts : List Text} {ls : List (List Lexeme)} (h : List.Forall₂ Lexes ts ls) :
    Lexes (Text.joinWith [','] ts) (separated ls) := by
  induction h with
  | nil => exact lexes_nil
  | @cons t l ts ls ht hts ih =>
      cases hts with
      | nil => exact ht
      | @cons u m us ms hu hus =>
          rw [Text.joinWith, separated, List.append_assoc]
          exact ht.append isSign_comma ih

/-- A text that is read as one lexeme up to its end is divided into this lexeme. -/
theorem lexes_of_readLexeme? {c : Char} {t : Text} {l : Lexeme} (hspace : isSpace c = false)
    (hread : ∀ rest, Text.Stops continuesNumber rest →
      readLexeme? (c :: (t ++ rest)) = some (l, rest)) : Lexes (c :: t) [l] := by
  intro rest hrest
  have hlength : rest.length ≤ (t ++ rest).length := by simp
  rw [List.cons_append, lexemes?_cons hspace (hread rest hrest) hlength]
  rfl

theorem lexes_string (t : Text) : Lexes (writeString t) [.string t] := by
  have htext : writeString t = '"' :: (t.flatMap writeChar ++ ['"']) := rfl
  rw [htext]
  apply lexes_of_readLexeme? rfl
  intro rest _
  rw [List.append_assoc, List.cons_append, List.nil_append, readLexeme?, readString?_write,
    Option.map_some]

/-- What begins like a number is read as a number. -/
theorem readLexeme?_of_beginsNumber {c : Char} (hc : c = '-' ∨ c.isDigit = true) (cs : Text) :
    readLexeme? (c :: cs) = (readNumber? (c :: cs)).map fun p => (.scalar (number p.1), p.2) := by
  have hne : c ∉ "[]\x7b\x7d,:\"ntf".toList := by
    intro hmem
    have hothers : ∀ d ∈ "[]\x7b\x7d,:\"ntf".toList, ¬ (d = '-' ∨ d.isDigit = true) := by
      simp [Char.isDigit]
    exact hothers c hmem hc
  rw [readLexeme?]
  all_goals
    intro _ h
    exact hne ((List.cons.inj h).1 ▸ by decide)

theorem isSpace_of_beginsNumber {c : Char} (hc : c = '-' ∨ c.isDigit = true) :
    isSpace c = false := by
  refine Bool.eq_false_iff.2 fun h => ?_
  simp only [isSpace, Bool.or_eq_true, beq_iff_eq] at h
  obtain ((rfl | rfl) | rfl) | rfl := h <;> exact absurd hc (by decide)

theorem exists_writeNumber_eq_cons (n : Int) :
    ∃ c cs, writeNumber (.integer n) = c :: cs ∧ (c = '-' ∨ c.isDigit = true) := by
  rw [writeNumber]
  split
  · exact ⟨'-', _, rfl, Or.inl rfl⟩
  · obtain ⟨d, ds, hfront, hd⟩ := exists_ofNat_eq_cons n.natAbs
    exact ⟨d, ds, hfront, Or.inr hd⟩

theorem lexes_integer {n : Int} (hn : Is64Bit n) :
    Lexes (writeNumber (.integer n)) [.scalar (number (.integer n))] := by
  obtain ⟨c, cs, hfront, hc⟩ := exists_writeNumber_eq_cons n
  rw [hfront]
  apply lexes_of_readLexeme? (isSpace_of_beginsNumber hc)
  intro rest hrest
  rw [readLexeme?_of_beginsNumber hc, ← List.cons_append, ← hfront, readNumber?_write hn hrest,
    Option.map_some]

/-- Whether the numbers of a value are integers of 64 bits, and its containers are nested no deeper
than the given number of levels. -/
inductive Readable : Nat → Json → Prop
  | null {levels : Nat} : Readable levels null
  | bool {levels : Nat} (b : Bool) : Readable levels (bool b)
  | integer {levels : Nat} {n : Int} (h : Is64Bit n) : Readable levels (number (.integer n))
  | string {levels : Nat} (t : Text) : Readable levels (string t)
  | array {levels : Nat} {items : List Json} (h : ∀ v ∈ items, Readable levels v) :
      Readable (levels + 1) (array items)
  | object {levels : Nat} {members : List (Text × Json)}
      (h : ∀ m ∈ members, Readable levels m.2) : Readable (levels + 1) (object members)

theorem forall₂_lexes_items {items : List Json} (h : ∀ v ∈ items, Lexes v.write v.lexemes) :
    List.Forall₂ Lexes (writeItems items) (itemLexemes items) := by
  induction items with
  | nil => exact .nil
  | cons v vs ih => exact .cons (h v (by simp)) (ih fun u hu => h u (by simp [hu]))

theorem forall₂_lexes_members {members : List (Text × Json)}
    (h : ∀ m ∈ members, Lexes m.2.write m.2.lexemes) :
    List.Forall₂ Lexes (writeMembers members) (memberLexemes members) := by
  induction members with
  | nil => exact .nil
  | cons m ms ih =>
      have hmember : Lexes (writeString m.1 ++ ':' :: m.2.write)
          ([.string m.1] ++ .colon :: m.2.lexemes) :=
        (lexes_string m.1).append isSign_colon (h m (by simp))
      exact .cons hmember (ih fun u hu => h u (by simp [hu]))

/-- A written value is divided into its lexemes. -/
theorem lexes_write {levels : Nat} {v : Json} (h : Readable levels v) :
    Lexes v.write v.lexemes := by
  induction h with
  | null => exact lexes_of_readLexeme? (c := 'n') rfl fun _ _ => rfl
  | bool b =>
      cases b with
      | false => exact lexes_of_readLexeme? (c := 'f') rfl fun _ _ => rfl
      | true => exact lexes_of_readLexeme? (c := 't') rfl fun _ _ => rfl
  | integer h => exact lexes_integer h
  | string t => exact lexes_string t
  | array h ih =>
      exact .cons isSign_openArray
        ((Lexes.join (forall₂_lexes_items ih)).append isSign_closeArray lexes_nil)
  | object h ih =>
      exact .cons isSign_openObject
        ((Lexes.join (forall₂_lexes_members ih)).append isSign_closeObject lexes_nil)

end Lexemes

section Containers

variable {frames : List Frame} {p q : Progress} {ls : List Lexeme}

theorem foldlM_advance?_cons {l : Lexeme} (h : advance? p l = some q) :
    (l :: ls).foldlM advance? p = ls.foldlM advance? q := by
  rw [List.foldlM_cons, h]
  rfl

theorem foldlM_advance?_append {ms : List Lexeme} (h : ls.foldlM advance? p = some q) :
    (ls ++ ms).foldlM advance? p = ms.foldlM advance? q := by
  rw [List.foldlM_append, h]
  rfl

theorem foldlM_advance?_singleton (l : Lexeme) : [l].foldlM advance? p = advance? p l := by
  rw [List.foldlM_cons]
  exact bind_pure _

/-- Whether the lexemes of a value hand it to the container that is open around it, wherever a value
may come. -/
def Builds (frames : List Frame) (v : Json) : Prop :=
  ∀ next, next = .value ∨ next = .firstItem →
    v.lexemes.foldlM advance? (.within frames next) = deliver v frames

/-- The items of an array are collected in it. -/
theorem foldlM_itemLexemes {v : Json} {vs done : List Json}
    (h : ∀ u ∈ v :: vs, ∀ done, Builds (.array done :: frames) u) {next : Expected}
    (hnext : next = .value ∨ next = .firstItem) :
    (separated (itemLexemes (v :: vs))).foldlM advance? (.within (.array done :: frames) next) =
      some (.within (.array ((v :: vs).reverse ++ done) :: frames) .separator) := by
  induction vs generalizing v done next with
  | nil => exact h v (by simp) done next hnext
  | cons u us ih =>
      have hv : v.lexemes.foldlM advance? (.within (.array done :: frames) next) =
          some (.within (.array (v :: done) :: frames) .separator) := h v (by simp) done next hnext
      have hcomma : advance? (.within (.array (v :: done) :: frames) .separator) .comma =
          some (.within (.array (v :: done) :: frames) .value) := rfl
      have hlater := fun w hw => h w (List.mem_cons_of_mem v hw)
      have hreverse : (v :: u :: us).reverse ++ done = (u :: us).reverse ++ v :: done := by simp
      rw [itemLexemes, itemLexemes, separated, foldlM_advance?_append hv,
        foldlM_advance?_cons hcomma, ← itemLexemes, ih hlater (Or.inl rfl), hreverse]

theorem foldlM_member {m : Text × Json} {done : List (Text × Json)} {next : Expected}
    (hnext : next = .key ∨ next = .firstKey) (h : Builds (.member done m.1 :: frames) m.2) :
    (.string m.1 :: .colon :: m.2.lexemes).foldlM advance? (.within (.object done :: frames) next) =
      some (.within (.object (m :: done) :: frames) .separator) := by
  have hkey : advance? (.within (.object done :: frames) next) (.string m.1) =
      some (.within (.member done m.1 :: frames) .colon) := by
    obtain rfl | rfl := hnext <;> rfl
  have hcolon : advance? (.within (.member done m.1 :: frames) .colon) .colon =
      some (.within (.member done m.1 :: frames) .value) := rfl
  rw [foldlM_advance?_cons hkey, foldlM_advance?_cons hcolon]
  exact h .value (Or.inl rfl)

/-- The members of an object are collected in it. -/
theorem foldlM_memberLexemes {m : Text × Json} {ms done : List (Text × Json)}
    (h : ∀ u ∈ m :: ms, ∀ done, Builds (.member done u.1 :: frames) u.2) {next : Expected}
    (hnext : next = .key ∨ next = .firstKey) :
    (separated (memberLexemes (m :: ms))).foldlM advance? (.within (.object done :: frames) next) =
      some (.within (.object ((m :: ms).reverse ++ done) :: frames) .separator) := by
  induction ms generalizing m done next with
  | nil => exact foldlM_member hnext (h m (by simp) done)
  | cons u us ih =>
      have hm := foldlM_member hnext (h m (by simp) done)
      have hcomma : advance? (.within (.object (m :: done) :: frames) .separator) .comma =
          some (.within (.object (m :: done) :: frames) .key) := rfl
      have hlater := fun w hw => h w (List.mem_cons_of_mem m hw)
      have hreverse : (m :: u :: us).reverse ++ done = (u :: us).reverse ++ m :: done := by simp
      rw [memberLexemes, memberLexemes, separated, foldlM_advance?_append hm,
        foldlM_advance?_cons hcomma, ← memberLexemes, ih hlater (Or.inl rfl), hreverse]

theorem builds_array {items : List Json} (hroom : frames.length < maxDepth)
    (h : ∀ u ∈ items, ∀ done, Builds (.array done :: frames) u) : Builds frames (.array items) := by
  intro next hnext
  have hopen : advance? (.within frames next) .openArray =
      some (.within (.array [] :: frames) .firstItem) := by
    obtain rfl | rfl := hnext <;> exact if_pos hroom
  rw [lexemes, foldlM_advance?_cons hopen]
  cases items with
  | nil => exact foldlM_advance?_singleton _
  | cons v vs =>
      rw [foldlM_advance?_append (foldlM_itemLexemes h (Or.inr rfl)), foldlM_advance?_singleton,
        List.append_nil, advance?, List.reverse_reverse]

theorem builds_object {members : List (Text × Json)} (hroom : frames.length < maxDepth)
    (h : ∀ u ∈ members, ∀ done, Builds (.member done u.1 :: frames) u.2) :
    Builds frames (.object members) := by
  intro next hnext
  have hopen : advance? (.within frames next) .openObject =
      some (.within (.object [] :: frames) .firstKey) := by
    obtain rfl | rfl := hnext <;> exact if_pos hroom
  rw [lexemes, foldlM_advance?_cons hopen]
  cases members with
  | nil => exact foldlM_advance?_singleton _
  | cons m ms =>
      rw [foldlM_advance?_append (foldlM_memberLexemes h (Or.inr rfl)), foldlM_advance?_singleton,
        List.append_nil, advance?, List.reverse_reverse]

theorem builds_of_lexemes_eq {v : Json} {l : Lexeme} (hlexemes : v.lexemes = [l])
    (h : ∀ next, next = .value ∨ next = .firstItem →
      advance? (.within frames next) l = deliver v frames) : Builds frames v := by
  intro next hnext
  rw [hlexemes, foldlM_advance?_singleton, h next hnext]

/-- The lexemes of a value hand it to the container that is open around it, if there is room for the
containers in it. -/
theorem builds_of_readable {levels : Nat} {v : Json} (h : Readable levels v)
    (hdepth : frames.length + levels ≤ maxDepth) : Builds frames v := by
  induction h generalizing frames with
  | null => exact builds_of_lexemes_eq rfl (by rintro next (rfl | rfl) <;> rfl)
  | bool b => exact builds_of_lexemes_eq rfl (by rintro next (rfl | rfl) <;> rfl)
  | integer h => exact builds_of_lexemes_eq rfl (by rintro next (rfl | rfl) <;> rfl)
  | string t => exact builds_of_lexemes_eq rfl (by rintro next (rfl | rfl) <;> rfl)
  | array h ih =>
      exact builds_array (by omega) fun u hu done => ih u hu (by rw [List.length_cons]; omega)
  | object h ih =>
      exact builds_object (by omega) fun u hu done => ih u hu (by rw [List.length_cons]; omega)

end Containers

theorem lexemes?_of_all_isSpace {w : Text} (h : w.all isSpace = true) : lexemes? w = some [] := by
  have hdrop : (w ++ []).dropWhile isSpace = [] :=
    List.dropWhile_append_of_pos (List.all_eq_true.1 h)
  rw [List.append_nil] at hdrop
  rw [lexemes?, hdrop]

theorem stops_of_all_isSpace {w : Text} (h : w.all isSpace = true) :
    Text.Stops continuesNumber w := by
  intro c hc
  have hspace := List.all_eq_true.1 h c (List.mem_of_mem_head? hc)
  simp only [isSpace, Bool.or_eq_true, beq_iff_eq] at hspace
  obtain ((rfl | rfl) | rfl) | rfl := hspace <;> decide

/-- A value is read back from its text, which white space may follow. -/
theorem parse?_write {v : Json} (h : Readable maxDepth v) {w : Text} (hw : w.all isSpace = true) :
    parse? (v.write ++ w) = some v := by
  have hlexemes : lexemes? (v.write ++ w) = some v.lexemes := by
    rw [lexes_write h w (stops_of_all_isSpace hw), lexemes?_of_all_isSpace hw, Option.map_some,
      List.append_nil]
  have hbuilds : v.lexemes.foldlM advance? (.within [] .value) = some (.complete v) :=
    builds_of_readable h (by simp) .value (Or.inl rfl)
  rw [parse?, hlexemes, Option.bind_some, ofLexemes?, hbuilds]

end MustachePath.Json
