import MustachePath.Data.Path
import MustachePath.Mustache.NativePath
import MustachePath.Proofs.Tokens

/-!
# Paths as they are written

A written path is a name with steps after it: names after dots, and brackets around an index, a
quoted key or a comparison. Quotes in brackets come in pairs, so the brackets end where they were
meant to (`bracketEnd?_inside`), although the quotes of a comparison may close and open the quotes
around it.
-/

namespace MustachePath

/-- Whether a text has no quotes, brackets, braces and backslashes. -/
def Inert (t : Text) : Prop := ∀ c ∈ t, c ∉ ['"', '\'', '[', ']', '{', '}', '\\']

instance (t : Text) : Decidable (Inert t) :=
  List.decidableBAll (fun c => c ∉ ['"', '\'', '[', ']', '{', '}', '\\']) t

/-- Whether a text has no brackets, braces and backslashes, though it may have quotes. -/
def Unbracketed (t : Text) : Prop := ∀ c ∈ t, c ∉ ['[', ']', '{', '}', '\\']

/-- The name of a key or a field in brackets. -/
structure KeyText where
  text : Text
  ne_nil : text ≠ []
  inert : Inert text
  plain : ∀ c ∈ text, isPlainKeyChar c = true

/-- The two quotes. -/
inductive Quote where
  | double
  | single

namespace Quote

/-- The character of a quote. -/
def char : Quote → Char
  | double => '"'
  | single => '\''

/-- A text between two quotes. -/
def enclose (q : Quote) (t : Text) : Text := q.char :: (t ++ [q.char])

end Quote

/-- A sign of comparison as it is written. -/
def Comparison.sign : Comparison → Text
  | equal => ['=', '=']
  | notEqual => ['!', '=']

/-- A field, a sign and a quoted value. -/
structure WrittenComparison where
  field : KeyText
  field_trim : Text.trim field.text = field.text
  sign : Comparison
  quote : Quote
  value : Text
  value_inert : Inert value

/-- A comparison without quotes around it. -/
def WrittenComparison.text (w : WrittenComparison) : Text :=
  w.field.text ++ (w.sign.sign ++ w.quote.enclose w.value)

/-- What stands between brackets: an index, a quoted key, or a comparison, which may be quoted as a
whole. -/
inductive Inside where
  | index (n : Nat) (h : n < Nat.pow 2 64)
  | key (q : Quote) (k : KeyText)
  | comparison (outer : Option Quote) (w : WrittenComparison)

namespace Inside

/-- The text between the brackets. -/
def text : Inside → Text
  | index n _ => Text.ofNat n
  | key q k => q.enclose k.text
  | comparison none w => w.text
  | comparison (some q) w => q.enclose w.text

/-- The step that the brackets stand for. -/
def step : Inside → Step
  | index n _ => .index n
  | key _ k => .key k.text
  | comparison _ w => .predicate ⟨w.field.text, w.sign, w.value⟩

end Inside

/-- A further step of a path, with or without a dot before brackets. -/
inductive Suffix where
  | field (n : Name)
  | bracket (dotted : Bool) (x : Inside)

namespace Suffix

/-- The suffix as it is written. -/
def text : Suffix → Text
  | field n => '.' :: n.text
  | bracket dotted x => (if dotted then ['.'] else []) ++ '[' :: (x.text ++ [']'])

theorem text_dotted (x : Inside) (rest : Text) :
    (bracket true x).text ++ rest = '.' :: '[' :: (x.text ++ ']' :: rest) := by
  simp [text]

theorem text_undotted (x : Inside) (rest : Text) :
    (bracket false x).text ++ rest = '[' :: (x.text ++ ']' :: rest) := by
  simp [text]

/-- The step that the suffix stands for. -/
def step : Suffix → Step
  | field n => .key n.text
  | bracket _ x => x.step

end Suffix

/-- A path that begins with a name other than the context word. -/
structure WrittenPath where
  head : Name
  head_ne : head.text ≠ ['t', 'h', 'i', 's']
  suffixes : List Suffix

namespace WrittenPath

/-- The path as it is written. -/
def text (p : WrittenPath) : Text := p.head.text ++ p.suffixes.flatMap Suffix.text

/-- The steps of the path. -/
def steps (p : WrittenPath) : Path := .key p.head.text :: p.suffixes.map Suffix.step

end WrittenPath

theorem Inert.cons {c : Char} {t : Text} (h : Inert (c :: t)) : Inert t :=
  fun d hd => h d (List.mem_cons_of_mem c hd)

theorem Inert.excludes {t : Text} (h : Inert t) {c : Char} (hc : c ∈ t) :
    c ≠ '"' ∧ c ≠ '\'' ∧ c ≠ '[' ∧ c ≠ ']' ∧ c ≠ '{' ∧ c ≠ '}' ∧ c ≠ '\\' := by
  have hmem := h c hc
  simpa [not_or] using hmem

theorem inert_sign (s : Comparison) : Inert s.sign := by
  cases s with
  | equal => decide
  | notEqual => decide

theorem isDigit_ofNat {n : Nat} {c : Char} (h : c ∈ Text.ofNat n) : c.isDigit = true :=
  Nat.isDigit_of_mem_toDigits (by decide) (by decide) h

/-- A decimal digit is none of the signs of a path. -/
theorem excludes_of_isDigit {c : Char} (h : c.isDigit = true) :
    c ∉ ['"', '\'', '[', ']', '{', '}', '\\', '=', '!'] := by
  intro hmem
  simp only [List.mem_cons, List.not_mem_nil, or_false] at hmem
  obtain rfl | rfl | rfl | rfl | rfl | rfl | rfl | rfl | rfl := hmem <;>
    exact absurd h (by decide)

theorem inert_ofNat (n : Nat) : Inert (Text.ofNat n) := by
  intro c hc hmem
  apply excludes_of_isDigit (isDigit_ofNat hc)
  simp only [List.mem_cons, List.not_mem_nil, or_false] at hmem ⊢
  obtain h | h | h | h | h | h | h := hmem <;> simp [h]

theorem Inert.unbracketed {t : Text} (h : Inert t) : Unbracketed t :=
  fun c hc hmem => h c hc (List.mem_cons_of_mem _ (List.mem_cons_of_mem _ hmem))

theorem Unbracketed.append {s t : Text} (hs : Unbracketed s) (ht : Unbracketed t) :
    Unbracketed (s ++ t) := by
  intro c hc
  obtain hc | hc := List.mem_append.1 hc
  · exact hs c hc
  · exact ht c hc

namespace Quote

variable (q : Quote)

theorem isQuote_char : isQuote q.char = true := by
  cases q with
  | double => rfl
  | single => rfl

theorem isBlank_char : isBlank q.char = false := by
  cases q with
  | double => decide
  | single => decide

theorem unbracketed_char : q.char ∉ ['[', ']', '{', '}', '\\'] := by
  cases q with
  | double => decide
  | single => decide

theorem char_ne : q.char ≠ '\\' ∧ q.char ≠ ']' := by
  have hmem := q.unbracketed_char
  simp only [List.mem_cons, List.not_mem_nil, or_false, not_or] at hmem
  exact ⟨hmem.2.2.2.2, hmem.2.1⟩

theorem unbracketed_enclose {t : Text} (h : Unbracketed t) : Unbracketed (q.enclose t) := by
  intro c hc
  simp only [enclose, List.mem_cons, List.mem_append, List.not_mem_nil, or_false] at hc
  obtain rfl | hc | rfl := hc
  · exact q.unbracketed_char
  · exact h c hc
  · exact q.unbracketed_char

end Quote

theorem WrittenComparison.unbracketed (w : WrittenComparison) : Unbracketed w.text :=
  w.field.inert.unbracketed.append
    ((inert_sign w.sign).unbracketed.append (w.quote.unbracketed_enclose w.value_inert.unbracketed))

/-- What stands between brackets has no brackets of its own. -/
theorem Inside.unbracketed (x : Inside) : Unbracketed x.text := by
  cases x with
  | index n h => exact (inert_ofNat n).unbracketed
  | key q k => exact q.unbracketed_enclose k.inert.unbracketed
  | comparison outer w =>
      cases outer with
      | none => exact w.unbracketed
      | some q => exact q.unbracketed_enclose w.unbracketed

theorem bracketEnd?_some_cons (q : Char) {c : Char} (hc : c ≠ '\\') (cs : Text) :
    bracketEnd? (some q) (c :: cs) =
      (bracketEnd? (if c = q then none else some q) cs).map fun p => (c :: p.1, p.2) := by
  rw [bracketEnd?.eq_def]
  simp [hc]

theorem bracketEnd?_none_cons {c : Char} (hc : c ≠ ']') (cs : Text) :
    bracketEnd? none (c :: cs) =
      (bracketEnd? (if isQuote c then some c else none) cs).map fun p => (c :: p.1, p.2) := by
  rw [bracketEnd?, if_neg hc]

/-- Whether the search for a closing bracket passes over a text and is in the same quote after
it. -/
def Passes (quote : Option Quote) (w : Text) : Prop :=
  ∀ cs, bracketEnd? (quote.map Quote.char) (w ++ cs) =
    (bracketEnd? (quote.map Quote.char) cs).map fun p => (w ++ p.1, p.2)

theorem Passes.append {quote : Option Quote} {w w' : Text} (h : Passes quote w)
    (h' : Passes quote w') : Passes quote (w ++ w') := by
  intro cs
  rw [List.append_assoc, h, h', Option.map_map]
  simp [Function.comp_def]

theorem Inert.quote_notMem {w : Text} (h : Inert w) (q : Quote) : q.char ∉ w := by
  intro hmem
  obtain ⟨hdouble, hsingle, -⟩ := h.excludes hmem
  cases q with
  | double => exact hdouble rfl
  | single => exact hsingle rfl

theorem passes_inert (quote : Option Quote) {w : Text} (h : Inert w) : Passes quote w := by
  intro cs
  induction w with
  | nil => simp
  | cons c w ih =>
      obtain ⟨hdouble, hsingle, -, hclose, -, -, hslash⟩ := h.excludes (by simp : c ∈ c :: w)
      rw [List.cons_append]
      cases quote with
      | none =>
          have hquote : isQuote c = false := by simp [isQuote, hdouble, hsingle]
          rw [Option.map_none] at ih ⊢
          rw [bracketEnd?_none_cons hclose, hquote, if_neg (by simp), ih h.cons, Option.map_map]
          rfl
      | some q =>
          have hq : c ≠ q.char := by
            rintro rfl
            exact h.quote_notMem q (by simp)
          rw [Option.map_some] at ih ⊢
          rw [bracketEnd?_some_cons _ hslash, if_neg hq, ih h.cons, Option.map_map]
          rfl

/-- A quote that is open closes at its next occurrence. -/
theorem bracketEnd?_enclose (q : Quote) {w : Text} (h : Passes (some q) w) (cs : Text) :
    bracketEnd? none (q.enclose w ++ cs) =
      (bracketEnd? none cs).map fun p => (q.enclose w ++ p.1, p.2) := by
  have hclose := bracketEnd?_some_cons q.char q.char_ne.1 cs
  rw [if_pos rfl] at hclose
  have hpass := h (q.char :: cs)
  rw [Option.map_some] at hpass
  rw [Quote.enclose, List.cons_append, List.append_assoc, List.cons_append, List.nil_append,
    bracketEnd?_none_cons q.char_ne.2, if_pos q.isQuote_char, hpass, hclose, Option.map_map,
    Option.map_map]
  simp [Function.comp_def]

/-- A quoted text leaves the search where it was, in a quote of either kind as well. -/
theorem passes_enclose (quote : Option Quote) (q : Quote) {w : Text} (h : Inert w) :
    Passes quote (q.enclose w) := by
  cases quote with
  | none => exact bracketEnd?_enclose q (passes_inert (some q) h)
  | some r =>
      intro cs
      rw [Option.map_some]
      by_cases hqr : q.char = r.char
      · -- The first quote closes the outer one, and the second opens it again.
        have hinner := passes_inert none h (r.char :: cs)
        have hreopen := bracketEnd?_none_cons r.char_ne.2 cs
        rw [if_pos r.isQuote_char] at hreopen
        rw [Option.map_none] at hinner
        rw [Quote.enclose, hqr, List.cons_append, List.append_assoc, List.cons_append,
          List.nil_append, bracketEnd?_some_cons _ r.char_ne.1, if_pos rfl, hinner, hreopen,
          Option.map_map, Option.map_map]
        simp [Function.comp_def]
      · have hinner := passes_inert (some r) h (q.char :: cs)
        have hlast := bracketEnd?_some_cons r.char q.char_ne.1 cs
        rw [if_neg hqr] at hlast
        rw [Option.map_some] at hinner
        rw [Quote.enclose, List.cons_append, List.append_assoc, List.cons_append, List.nil_append,
          bracketEnd?_some_cons _ q.char_ne.1, if_neg hqr, hinner, hlast, Option.map_map,
          Option.map_map]
        simp [Function.comp_def]

theorem passes_comparison (quote : Option Quote) (w : WrittenComparison) :
    Passes quote w.text :=
  (passes_inert quote w.field.inert).append
    ((passes_inert quote (inert_sign w.sign)).append (passes_enclose quote w.quote w.value_inert))

/-- Brackets end right after what was written in them. -/
theorem bracketEnd?_inside (x : Inside) (rest : Text) :
    bracketEnd? none (x.text ++ ']' :: rest) = some (x.text, rest) := by
  have hpass : Passes none x.text := by
    cases x with
    | index n h => exact passes_inert none (inert_ofNat n)
    | key q k => exact passes_enclose none q k.inert
    | comparison outer w =>
        cases outer with
        | none => exact passes_comparison none w
        | some q => exact bracketEnd?_enclose q (passes_comparison (some q) w)
  have hend : bracketEnd? none (']' :: rest) = some ([], rest) := by
    rw [bracketEnd?, if_pos rfl]
  have h := hpass (']' :: rest)
  rw [Option.map_none, hend] at h
  rw [h]
  simp

namespace Suffix

theorem text_ne_nil (s : Suffix) : s.text ≠ [] := by
  cases s with
  | field n => exact List.cons_ne_nil _ _
  | bracket dotted x => exact List.append_ne_nil_of_right_ne_nil _ (List.cons_ne_nil _ _)

theorem getLast?_text (s : Suffix) :
    ∀ c ∈ s.text.getLast?, isNameChar c = true ∨ c = ']' := by
  intro c hc
  cases s with
  | field n =>
      rw [text, List.getLast?_cons_of_ne_nil n.isName.1] at hc
      exact .inl (n.isName.2 c (List.mem_of_getLast? hc))
  | bracket dotted x =>
      rw [text, ← List.cons_append, ← List.append_assoc, List.getLast?_concat] at hc
      exact .inr (Option.some.inj hc).symm

end Suffix

theorem stops_suffixes {test : Char → Bool} (hdot : test '.' = false) (hbracket : test '[' = false)
    (ss : List Suffix) : Text.Stops test (ss.flatMap Suffix.text) := by
  cases ss with
  | nil => exact Text.stops_nil test
  | cons s ss =>
      rw [List.flatMap_cons]
      cases s with
      | field n => exact Text.stops_cons.2 hdot
      | bracket dotted x =>
          cases dotted with
          | true => exact Text.stops_cons.2 hdot
          | false => exact Text.stops_cons.2 hbracket

namespace WrittenPath

variable (p : WrittenPath)

theorem text_ne_nil : p.text ≠ [] :=
  List.append_ne_nil_of_left_ne_nil p.head.isName.1 _

theorem exists_text_eq_cons : ∃ c cs, isNameChar c = true ∧ p.text = c :: cs := by
  obtain ⟨c, cs, hcs⟩ := List.exists_cons_of_ne_nil p.head.isName.1
  refine ⟨c, cs ++ p.suffixes.flatMap Suffix.text, p.head.isName.2 c (by simp [hcs]), ?_⟩
  rw [text, hcs, List.cons_append]

/-- A path ends with a name or with brackets. -/
theorem getLast?_text : ∀ c ∈ p.text.getLast?, isNameChar c = true ∨ c = ']' := by
  intro c hc
  rw [text] at hc
  obtain hnil | ⟨init, last, hlast⟩ := List.eq_nil_or_concat p.suffixes
  · rw [hnil, List.flatMap_nil, List.append_nil] at hc
    exact .inl (p.head.isName.2 c (List.mem_of_getLast? hc))
  · rw [hlast, List.concat_eq_append, List.flatMap_append, List.flatMap_singleton,
      ← List.append_assoc, Text.getLast?_append_of_ne_nil last.text_ne_nil] at hc
    exact last.getLast?_text c hc

theorem isBlank_getLast? : ∀ c ∈ p.text.getLast?, isBlank c = false ∧ c ≠ '~' := by
  intro c hc
  obtain hname | rfl := p.getLast?_text c hc
  · exact ⟨(IsName.excludes hname).1, (IsName.excludes hname).2.1⟩
  · decide

end WrittenPath

end MustachePath
