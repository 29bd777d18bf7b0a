import MustachePath.Data.Predicate
import MustachePath.Proofs.WrittenPaths

/-!
# The search for a sign of comparison

The search goes through the bytes of a text, and behind a backslash it may come out inside a
character. It goes on to the end of that character, since no byte there is a quote, a backslash or
part of a sign (`signFrom?_append_of_wide`), and so it finds what a reading character by character
finds (`signFrom?_bytes`). That is the first sign outside of quotes, and the text can be cut before
and after it (`findSign?_eq_first`).
-/

namespace MustachePath

/-- Divides a text at the first sign of comparison outside of quotes. The text begins inside the
given quote, if there is one; inside a quote a backslash hides the next character. -/
def divideFrom? : Option Char → Text → Option Divided
  | _, [] => none
  | some quote, c :: cs =>
    if c = '\\' then
      match cs with
      | [] => none
      | d :: cs => (divideFrom? (some quote) cs).map (Divided.before [c, d])
    else (divideFrom? (if c = quote then none else some quote) cs).map (Divided.before [c])
  | none, c :: cs =>
    if isQuote c then (divideFrom? (some c) cs).map (Divided.before [c])
    else
      match c, cs with
      | '=', '=' :: cs => some ⟨[], .equal, cs⟩
      | '!', '=' :: cs => some ⟨[], .notEqual, cs⟩
      | c, cs => (divideFrom? none cs).map (Divided.before [c])

theorem divideFrom?_some_slash (quote d : Char) (cs : Text) :
    divideFrom? (some quote) ('\\' :: d :: cs) =
      (divideFrom? (some quote) cs).map (Divided.before ['\\', d]) := by
  rw [divideFrom?.eq_def]
  simp

theorem divideFrom?_some_cons (quote : Char) {c : Char} (hc : c ≠ '\\') (cs : Text) :
    divideFrom? (some quote) (c :: cs) =
      (divideFrom? (if c = quote then none else some quote) cs).map (Divided.before [c]) := by
  rw [divideFrom?.eq_def]
  simp [hc]

theorem divideFrom?_none_quote {c : Char} (hc : isQuote c = true) (cs : Text) :
    divideFrom? none (c :: cs) = (divideFrom? (some c) cs).map (Divided.before [c]) := by
  rw [divideFrom?.eq_def]
  simp [hc]

theorem divideFrom?_none_cons {c : Char} (hc : isQuote c = false) {cs : Text}
    (hsign : cs.head? = some '=' → c ≠ '=' ∧ c ≠ '!') :
    divideFrom? none (c :: cs) = (divideFrom? none cs).map (Divided.before [c]) := by
  rw [divideFrom?.eq_def]
  simp only [hc, Bool.false_eq_true, if_false]
  split
  · exact absurd rfl (hsign rfl).1
  · exact absurd rfl (hsign rfl).2
  · rfl

section Bytes

theorem toNat_lt_of_isQuote {c : Char} (hc : isQuote c = true) : c.toNat < 128 := by
  simp only [isQuote, Bool.or_eq_true, decide_eq_true_eq] at hc
  obtain rfl | rfl := hc <;> decide

section Step

variable {b : UInt8} {q c : Char} (hlook : Text.LooksLike b c) (place : Nat)

include hlook

theorem isQuoteByte_eq : isQuoteByte b = isQuote c := by
  simp only [isQuoteByte, isQuote, hlook '"' (by decide), hlook '\'' (by decide)]

/-- Inside a quote a byte that looks like the quote ends it. -/
theorem signFrom?_some_of_looksLike (hq : isQuote q = true) (hc : c ≠ '\\') (bs : List UInt8) :
    signFrom? place (some q.toUInt8) (b :: bs) =
      signFrom? (place + 1) ((if c = q then none else some q).map Char.toUInt8) bs := by
  have hslash : b ≠ '\\'.toUInt8 := mt (hlook '\\' (by decide)).1 hc
  have hquote := hlook q (toNat_lt_of_isQuote hq)
  rw [signFrom?_some_cons hslash]
  by_cases heq : c = q
  · rw [if_pos heq, if_pos (hquote.2 heq), Option.map_none]
  · rw [if_neg heq, if_neg (mt hquote.1 heq), Option.map_some]

/-- Outside of quotes a byte that looks like a quote begins one. -/
theorem signFrom?_none_of_quote (hc : isQuote c = true) (bs : List UInt8) :
    signFrom? place none (b :: bs) = signFrom? (place + 1) (some c.toUInt8) bs := by
  have hb : b = c.toUInt8 := (hlook c (toNat_lt_of_isQuote hc)).2 rfl
  rw [signFrom?_none_cons, isQuoteByte_eq hlook, if_pos hc, hb]

/-- Outside of quotes the search goes on behind a byte that begins no sign. -/
theorem signFrom?_none_of_plain (hc : isQuote c = false) {bs : List UInt8}
    (hsign : ¬ ((c = '=' ∨ c = '!') ∧ bs.head? = some '='.toUInt8)) :
    signFrom? place none (b :: bs) = signFrom? (place + 1) none bs := by
  rw [signFrom?_none_cons, isQuoteByte_eq hlook, if_neg (by simp [hc])]
  simp only [hlook '=' (by decide), hlook '!' (by decide), if_neg hsign]

end Step

/-- A byte beyond ASCII looks like a character beyond ASCII. -/
theorem looksLike_of_le {b : UInt8} (hb : 128 ≤ b.toNat) : Text.LooksLike b '\u0080' := by
  intro x hx
  refine ⟨fun h => ?_, fun h => ?_⟩
  · rw [h, Text.toNat_toUInt8 hx] at hb
    omega
  · rw [← h] at hx
    exact absurd hx (by decide)

/-- The search passes over bytes beyond ASCII, inside and outside of quotes. -/
theorem signFrom?_append_of_wide {w : List UInt8} (hw : ∀ b ∈ w, 128 ≤ b.toNat)
    {quote : Option Char} (hquote : ∀ q ∈ quote, isQuote q = true) (place : Nat) (bs : List UInt8) :
    signFrom? place (quote.map Char.toUInt8) (w ++ bs) =
      signFrom? (place + w.length) (quote.map Char.toUInt8) bs := by
  induction w generalizing place with
  | nil => rfl
  | cons b w ih =>
      have hlook := looksLike_of_le (hw b (by simp))
      have hstep : signFrom? place (quote.map Char.toUInt8) (b :: (w ++ bs)) =
          signFrom? (place + 1) (quote.map Char.toUInt8) (w ++ bs) := by
        cases quote with
        | none => exact signFrom?_none_of_plain hlook place rfl (by simp)
        | some q =>
            have hq := hquote q rfl
            have hne : '\u0080' ≠ q := by
              rintro rfl
              exact absurd hq (by decide)
            rw [Option.map_some, signFrom?_some_of_looksLike hlook place hq (by decide), if_neg hne]
            rfl
      rw [List.cons_append, hstep, ih fun d hd => hw d (List.mem_cons_of_mem b hd),
        List.length_cons, Nat.add_assoc, Nat.add_comm 1]

/-- The search goes on behind a character as it goes on behind its first byte. -/
theorem signFrom?_bytes_cons {place : Nat} {quote next : Option Char} {c : Char} {cs : Text}
    (hnext : ∀ q ∈ next, isQuote q = true)
    (hstep : ∀ b bs, Text.bytes (c :: cs) = b :: bs → Text.LooksLike b c →
      signFrom? place (quote.map Char.toUInt8) (b :: bs) =
        signFrom? (place + 1) (next.map Char.toUInt8) bs) :
    signFrom? place (quote.map Char.toUInt8) (Text.bytes (c :: cs)) =
      signFrom? (place + Text.byteLength [c]) (next.map Char.toUInt8) (Text.bytes cs) := by
  obtain ⟨b, w, hc, hlook, hw⟩ := Text.exists_utf8EncodeChar_eq_cons c
  have hsize : Text.byteLength [c] = 1 + w.length := by
    rw [Text.byteLength_cons, Text.byteLength_nil, Nat.add_zero, ← String.length_utf8EncodeChar, hc,
      List.length_cons, Nat.add_comm]
  have hbytes : Text.bytes (c :: cs) = b :: (w ++ Text.bytes cs) := by
    rw [Text.bytes_cons, hc, List.cons_append]
  rw [hbytes, hstep b _ hbytes hlook, signFrom?_append_of_wide hw hnext, hsize, Nat.add_assoc]

theorem head?_bytes_eq_some_iff {cs : Text} {x : Char} (hx : x.toNat < 128) :
    (Text.bytes cs).head? = some x.toUInt8 ↔ cs.head? = some x := by
  cases cs with
  | nil => simp
  | cons c cs =>
      obtain ⟨b, w, hc, hlook, -⟩ := Text.exists_utf8EncodeChar_eq_cons c
      rw [Text.bytes_cons, hc, List.cons_append, List.head?_cons, Option.some.injEq, hlook x hx,
        List.head?_cons, Option.some.injEq]

/-- A byte begins a sign of a text where a character begins one. -/
theorem begins_of_bytes {b : UInt8} {c : Char} {bs : List UInt8} {cs : Text}
    (hbytes : Text.bytes (c :: cs) = b :: bs)
    (h : (c = '=' ∨ c = '!') ∧ bs.head? = some '='.toUInt8) : cs.head? = some '=' := by
  obtain ⟨hbegins, hhead⟩ := h
  have hlt : c.toNat < 128 := by
    obtain rfl | rfl := hbegins <;> decide
  rw [Text.bytes_cons, Text.utf8EncodeChar_of_ascii hlt] at hbytes
  rw [← (List.cons.inj hbytes).2] at hhead
  exact (head?_bytes_eq_some_iff (by decide)).1 hhead

/-- Behind a backslash the search skips one byte, and it passes over what is left of the
character. -/
theorem signFrom?_bytes_slash {q : Char} (hq : isQuote q = true) (place : Nat) (c : Char)
    (cs : Text) :
    signFrom? place (some q.toUInt8) (Text.bytes ('\\' :: c :: cs)) =
      signFrom? (place + Text.byteLength ['\\', c]) (some q.toUInt8) (Text.bytes cs) := by
  obtain ⟨b, w, hc, -, hw⟩ := Text.exists_utf8EncodeChar_eq_cons c
  have hlength : Text.byteLength ['\\', c] = 2 + w.length := by
    have hslash : '\\'.utf8Size = 1 := by decide
    have hsize := String.length_utf8EncodeChar c
    rw [hc, List.length_cons] at hsize
    simp only [Text.byteLength_cons, Text.byteLength_nil]
    omega
  have hbytes : Text.bytes ('\\' :: c :: cs) = '\\'.toUInt8 :: b :: (w ++ Text.bytes cs) := by
    rw [Text.bytes_cons, Text.bytes_cons, Text.utf8EncodeChar_of_ascii (by decide), hc]
    rfl
  have hquote : ∀ d ∈ some q, isQuote d = true := fun _ hd => Option.some.inj hd ▸ hq
  have hskip := signFrom?_append_of_wide hw hquote (place + 2) (Text.bytes cs)
  rw [Option.map_some] at hskip
  rw [hbytes, signFrom?, if_pos rfl, hskip, hlength, Nat.add_assoc]

end Bytes

/-- The place and the sign of a division, in a text that begins at the given place. -/
def Divided.signAt (place : Nat) (d : Divided) : Nat × Comparison :=
  (place + Text.byteLength d.front, d.comparison)

theorem map_signAt_before (place : Nat) (w : Text) (r : Option Divided) :
    (r.map (Divided.before w)).map (Divided.signAt place) =
      r.map (Divided.signAt (place + Text.byteLength w)) := by
  rw [Option.map_map]
  congr 1
  funext d
  simp [Divided.signAt, Divided.before, Nat.add_assoc]

/-- The search among the bytes of a text finds what the reading of its characters finds. -/
theorem signFrom?_bytes (place : Nat) {quote : Option Char} (hquote : ∀ q ∈ quote, isQuote q = true)
    (cs : Text) : signFrom? place (quote.map Char.toUInt8) (Text.bytes cs) =
      (divideFrom? quote cs).map (Divided.signAt place) := by
  fun_induction divideFrom? quote cs generalizing place with
  | case1 quote =>
      cases quote with
      | none => rfl
      | some q => rfl
  | case2 q => rfl
  | case3 q c cs ih =>
      rw [map_signAt_before, ← ih _ hquote]
      exact signFrom?_bytes_slash (hquote q rfl) place c cs
  | case4 q c cs hc ih =>
      have hq := hquote q rfl
      have hnext : ∀ d ∈ if c = q then none else some q, isQuote d = true := by
        intro d hd
        obtain ⟨-, rfl⟩ : ¬ c = q ∧ q = d := by simpa using hd
        exact hq
      rw [map_signAt_before, ← ih _ hnext]
      exact signFrom?_bytes_cons hnext fun b bs _ hlook =>
        signFrom?_some_of_looksLike hlook place hq hc bs
  | case5 c cs hc ih =>
      have hnext : ∀ d ∈ some c, isQuote d = true := fun _ hd => Option.some.inj hd ▸ hc
      rw [map_signAt_before, ← ih _ hnext]
      exact signFrom?_bytes_cons hnext fun b bs _ hlook =>
        signFrom?_none_of_quote hlook place hc bs
  | case6 cs hc => rfl
  | case7 cs hc => rfl
  | case8 c cs hequal hnotEqual hc ih =>
      -- two bytes that look like a sign are two characters, so the characters would be a sign
      rw [map_signAt_before, ← ih _ hquote]
      refine signFrom?_bytes_cons hquote fun b bs hbytes hlook =>
        signFrom?_none_of_plain hlook place (Bool.eq_false_iff.2 hc) fun hsign => ?_
      obtain ⟨r, hr⟩ := List.head?_eq_some_iff.1 (begins_of_bytes hbytes hsign)
      exact hsign.1.elim (fun h => hequal r h hr) fun h => hnotEqual r h hr

/-- Where a reading of a text stands: outside of quotes, inside a quote, or inside a quote behind a
backslash that hides the next character. -/
inductive QuoteState where
  | outside
  | inside (quote : Char)
  | escaped (quote : Char)

namespace QuoteState

/-- Reads one character. A quote goes on to the same character, unless that is hidden. -/
def next : QuoteState → Char → QuoteState
  | outside, c => if isQuote c then inside c else outside
  | inside quote, c =>
    if c = '\\' then escaped quote else if c = quote then outside else inside quote
  | escaped quote, _ => inside quote

/-- Reads the characters of a text one by one. -/
def after (r : QuoteState) (w : Text) : QuoteState := w.foldl next r

/-- The reading that begins inside the given quote, if there is one. -/
def ofQuote : Option Char → QuoteState
  | none => outside
  | some quote => inside quote

end QuoteState

/-- Whether a text is divided at a sign of comparison that a reading comes to outside of quotes. -/
structure SignAt (r : QuoteState) (cs : Text) (d : Divided) : Prop where
  text_eq : cs = d.front ++ (d.comparison.sign ++ d.back)
  outside : r.after d.front = .outside

/-- Whether a text is divided at the first of these signs. -/
structure FirstSign (r : QuoteState) (cs : Text) (d : Divided) : Prop extends SignAt r cs d where
  first : ∀ other, SignAt r cs other → d.front <+: other.front

/-- Whether a division, if there is one, is the one at the first sign, and otherwise there is no
sign. -/
def Answers (r : QuoteState) (cs : Text) : Option Divided → Prop
  | some d => FirstSign r cs d
  | none => ∀ d, ¬ SignAt r cs d

section Characters

variable {r : QuoteState} {c : Char} {cs : Text}

/-- A sign stands at the front of a text or behind its first character. -/
theorem signAt_cons_iff {d : Divided} :
    SignAt r (c :: cs) d ↔
      (r = .outside ∧ d.front = [] ∧ c :: cs = d.comparison.sign ++ d.back) ∨
        ∃ e, d = Divided.before [c] e ∧ SignAt (r.next c) cs e := by
  obtain ⟨front, sign, back⟩ := d
  constructor
  · rintro ⟨htext, houtside⟩
    cases front with
    | nil => exact Or.inl ⟨houtside, rfl, htext⟩
    | cons x front =>
        obtain ⟨rfl, rfl⟩ := List.cons.inj htext
        exact Or.inr ⟨⟨front, sign, back⟩, rfl, rfl, houtside⟩
  · rintro (⟨rfl, rfl, htext⟩ | ⟨e, he, htext, houtside⟩)
    · exact ⟨htext, rfl⟩
    · rw [he]
      exact ⟨congrArg (c :: ·) htext, houtside⟩

theorem sign_append_inj {sign sign' : Comparison} {back back' : Text}
    (h : sign.sign ++ back = sign'.sign ++ back') : sign = sign' ∧ back = back' := by
  cases sign with
  | equal =>
      cases sign' with
      | equal => exact ⟨rfl, List.append_cancel_left h⟩
      | notEqual => exact absurd (List.cons.inj h).1 (by decide)
  | notEqual =>
      cases sign' with
      | equal => exact absurd (List.cons.inj h).1 (by decide)
      | notEqual => exact ⟨rfl, List.append_cancel_left h⟩

theorem FirstSign.unique {d e : Divided} (hd : FirstSign r cs d) (he : FirstSign r cs e) :
    d = e := by
  obtain ⟨front, sign, back⟩ := d
  obtain ⟨front', sign', back'⟩ := e
  obtain rfl : front = front' :=
    (hd.first _ he.toSignAt).eq_of_length_le (he.first _ hd.toSignAt).length_le
  obtain ⟨rfl, rfl⟩ := sign_append_inj (List.append_cancel_left (hd.text_eq.symm.trans he.text_eq))
  rfl

theorem answers_nil : Answers r [] none := by
  rintro ⟨front, sign, back⟩ ⟨htext, -⟩
  cases sign <;> simp [Comparison.sign] at htext

theorem answers_sign (sign : Comparison) (back : Text) :
    Answers .outside (sign.sign ++ back) (some ⟨[], sign, back⟩) :=
  ⟨⟨rfl, rfl⟩, fun _ _ => List.nil_prefix⟩

/-- Behind a character that begins no sign the search goes on. -/
theorem Answers.cons {found : Option Divided} (h : Answers (r.next c) cs found)
    (hno : r = .outside → ∀ (sign : Comparison) (back : Text), c :: cs ≠ sign.sign ++ back) :
    Answers r (c :: cs) (found.map (Divided.before [c])) := by
  cases found with
  | none =>
      intro d hd
      obtain ⟨hr, -, htext⟩ | ⟨e, -, he⟩ := signAt_cons_iff.1 hd
      · exact hno hr d.comparison d.back htext
      · exact h e he
  | some e =>
      refine ⟨signAt_cons_iff.2 (Or.inr ⟨e, rfl, h.toSignAt⟩), fun d hd => ?_⟩
      obtain ⟨hr, -, htext⟩ | ⟨e', rfl, he'⟩ := signAt_cons_iff.1 hd
      · exact absurd htext (hno hr d.comparison d.back)
      · exact List.cons_prefix_cons.2 ⟨rfl, h.first e' he'⟩

end Characters

/-- A text is divided at its first sign outside of quotes. -/
theorem answers_divideFrom? (quote : Option Char) (cs : Text) :
    Answers (.ofQuote quote) cs (divideFrom? quote cs) := by
  have hinside : ∀ q : Char, QuoteState.inside q ≠ .outside := by simp
  have hescaped : ∀ q : Char, QuoteState.escaped q ≠ .outside := by simp
  fun_induction divideFrom? quote cs with
  | case1 quote => exact answers_nil
  | case2 q =>
      have hend : Answers (QuoteState.next (.inside q) '\\') [] none := answers_nil
      exact hend.cons fun h => absurd h (hinside q)
  | case3 q c cs ih =>
      -- the backslash and the character that it hides are two steps of the reading
      have hnext : Answers (QuoteState.next (.inside q) '\\') (c :: cs)
          ((divideFrom? (some q) cs).map (Divided.before [c])) :=
        Answers.cons (r := .escaped q) ih fun h => absurd h (hescaped q)
      have hfront := hnext.cons fun h => absurd h (hinside q)
      rw [Option.map_map] at hfront
      exact hfront
  | case4 q c cs hc ih =>
      have hnext : QuoteState.next (.inside q) c = .ofQuote (if c = q then none else some q) := by
        rw [QuoteState.next, if_neg hc]
        split <;> rfl
      rw [← hnext] at ih
      exact ih.cons fun h => absurd h (hinside q)
  | case5 c cs hc ih =>
      have hnext : QuoteState.next .outside c = .ofQuote (some c) := if_pos hc
      rw [← hnext] at ih
      refine ih.cons fun _ sign back htext => ?_
      cases sign <;> (rw [(List.cons.inj htext).1] at hc; exact absurd hc (by decide))
  | case6 cs hc => exact answers_sign .equal cs
  | case7 cs hc => exact answers_sign .notEqual cs
  | case8 c cs hequal hnotEqual hc ih =>
      have hnext : QuoteState.next .outside c = .ofQuote none := if_neg hc
      rw [← hnext] at ih
      refine ih.cons fun _ sign back htext => ?_
      cases sign with
      | equal => exact hequal back (List.cons.inj htext).1 (List.cons.inj htext).2
      | notEqual => exact hnotEqual back (List.cons.inj htext).1 (List.cons.inj htext).2

/-- A text can be cut before and after a sign that stands in it. -/
theorem SignAt.splitAtByte? {r : QuoteState} {cs : Text} {d : Divided} (h : SignAt r cs d) :
    Text.splitAtByte? (Text.byteLength d.front) cs = some (d.front, d.comparison.sign ++ d.back) ∧
      Text.splitAtByte? (Text.byteLength d.front + 2) cs =
        some (d.front ++ d.comparison.sign, d.back) := by
  constructor
  · exact Text.splitAtByte?_eq_some_iff.2 ⟨h.text_eq, rfl⟩
  · have hsign : Text.byteLength d.comparison.sign = 2 := by
      cases d.comparison <;> rfl
    refine Text.splitAtByte?_eq_some_iff.2 ⟨?_, by rw [Text.byteLength_append, hsign]⟩
    rw [h.text_eq, List.append_assoc]

theorem divideFrom?_eq_some_iff {cs : Text} {d : Divided} :
    divideFrom? none cs = some d ↔ FirstSign .outside cs d := by
  have hanswer := answers_divideFrom? none cs
  constructor
  · intro h
    rwa [h] at hanswer
  · intro h
    cases hdivide : divideFrom? none cs with
    | none =>
        rw [hdivide] at hanswer
        exact absurd h.toSignAt (hanswer d)
    | some e =>
        rw [hdivide] at hanswer
        rw [hanswer.unique h]

theorem divideFrom?_eq_none_iff {cs : Text} :
    divideFrom? none cs = none ↔ ∀ d, ¬ SignAt .outside cs d := by
  have hanswer := answers_divideFrom? none cs
  constructor
  · intro h
    rwa [h] at hanswer
  · intro h
    cases hdivide : divideFrom? none cs with
    | none => rfl
    | some d =>
        rw [hdivide] at hanswer
        exact absurd hanswer.toSignAt (h d)

theorem findSign?_eq_map (cs : Text) :
    findSign? cs = (divideFrom? none cs).map (Divided.signAt 0) := by
  have hquote : ∀ q ∈ (none : Option Char), isQuote q = true := by simp
  exact signFrom?_bytes 0 hquote cs

theorem findSign?_eq_some_iff {cs : Text} {place : Nat} {sign : Comparison} :
    findSign? cs = some (place, sign) ↔
      ∃ front back, FirstSign .outside cs ⟨front, sign, back⟩ ∧ Text.byteLength front = place := by
  rw [findSign?_eq_map, Option.map_eq_some_iff]
  constructor
  · rintro ⟨⟨front, sign, back⟩, hdivide, heq⟩
    simp only [Divided.signAt, Nat.zero_add, Prod.mk.injEq] at heq
    obtain ⟨rfl, rfl⟩ := heq
    exact ⟨front, back, divideFrom?_eq_some_iff.1 hdivide, rfl⟩
  · rintro ⟨front, back, hfirst, rfl⟩
    refine ⟨⟨front, sign, back⟩, divideFrom?_eq_some_iff.2 hfirst, ?_⟩
    rw [Divided.signAt, Nat.zero_add]

/-- Dividing a text by places in bytes is dividing it character by character. -/
theorem divide?_eq_divideFrom? (cs : Text) : divide? cs = divideFrom? none cs := by
  have hfind := findSign?_eq_map cs
  cases hdivide : divideFrom? none cs with
  | none =>
      rw [hdivide, Option.map_none] at hfind
      simp [divide?, hfind]
  | some d =>
      rw [hdivide] at hfind
      obtain ⟨hfront, hback⟩ := (divideFrom?_eq_some_iff.1 hdivide).toSignAt.splitAtByte?
      simp [divide?, hfind, Divided.signAt, hfront, hback]

/-- The search finds the first sign outside of quotes, where the text can be cut before and after
the sign, and it finds nothing exactly if no sign stands outside of quotes. -/
theorem findSign?_eq_first (expression : Text) :
    (∀ place sign, findSign? expression = some (place, sign) ↔
      ∃ front back, FirstSign .outside expression ⟨front, sign, back⟩ ∧
        Text.byteLength front = place) ∧
    (findSign? expression = none ↔ ∀ d, ¬ SignAt .outside expression d) ∧
    ∀ place sign, findSign? expression = some (place, sign) →
      ∃ front back, Text.splitAtByte? place expression = some (front, sign.sign ++ back) ∧
        Text.splitAtByte? (place + 2) expression = some (front ++ sign.sign, back) ∧
        divide? expression = some ⟨front, sign, back⟩ := by
  refine ⟨fun place sign => findSign?_eq_some_iff, ?_, fun place sign hfind => ?_⟩
  · rw [findSign?_eq_map, Option.map_eq_none_iff]
    exact divideFrom?_eq_none_iff
  · obtain ⟨front, back, hfirst, rfl⟩ := findSign?_eq_some_iff.1 hfind
    obtain ⟨hfront, hback⟩ := hfirst.toSignAt.splitAtByte?
    refine ⟨front, back, hfront, hback, ?_⟩
    rw [divide?_eq_divideFrom?]
    exact divideFrom?_eq_some_iff.2 hfirst

/-- Behind the backslash the search comes out inside of the letter, which has two bytes. -/
example : findSign? "'\\é=='!=x".toList = some (7, .notEqual) := by decide +kernel

end MustachePath
