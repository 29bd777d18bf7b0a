import MustachePath.Proofs.PathReading

/-!
# Spelling a list of steps

Every list of steps can be spelled as a path. A key or a value that holds signs of the notation goes
between quotes, with a backslash before each backslash and each quote of that kind. So the brackets
around it end where they were meant to (`Bracketed.passes`), reading it drops the backslashes again
(`literalValue_spell`), and a spelled path is read as its steps (`SpelledPath.read_spelled`).
-/

namespace MustachePath

namespace Quote

/-- A text with a backslash before every backslash and every quote of the given kind. -/
def escape (q : Quote) (t : Text) : Text :=
  t.flatMap fun c => if c = '\\' ∨ c = q.char then ['\\', c] else [c]

/-- A text as a literal. -/
def spell (q : Quote) (t : Text) : Text := q.enclose (q.escape t)

end Quote

/-- A key that can stand without brackets. -/
structure BareKey where
  text : Text
  ne_nil : text ≠ []
  trim_text : Text.trim text = text
  bare : ∀ c ∈ text, isBareKeyChar c = true

/-- The field of a comparison. -/
structure FieldText where
  text : Text
  ne_nil : text ≠ []
  trim_text : Text.trim text = text
  plain : ∀ c ∈ text, c ∉ ['"', '\'', '\\', '[', ']', '=', '!']

/-- A field, a sign and a value in double quotes. -/
def FieldText.compare (f : FieldText) (sign : Comparison) (value : Text) : Text :=
  f.text ++ (sign.sign ++ Quote.double.spell value)

/-- What is spelled between brackets: a quoted key, an index, or a comparison, which may be quoted
as a whole. -/
inductive Bracketed where
  | key (q : Quote) (k : Text) (h : divide? k = none)
  | index (n : Nat) (h : n < Nat.pow 2 64)
  | comparison (quoted : Bool) (f : FieldText) (sign : Comparison) (value : Text)

namespace Bracketed

/-- The step that is spelled. -/
def step : Bracketed → Step
  | key _ k _ => .key k
  | index n _ => .index n
  | comparison _ f sign value => .predicate ⟨f.text, sign, value⟩

/-- The text between the brackets. -/
def text : Bracketed → Text
  | key q k _ => q.spell k
  | index n _ => Text.ofNat n
  | comparison false f sign value => f.compare sign value
  | comparison true f sign value => Quote.single.spell (f.compare sign value)

end Bracketed

/-- A step as it is spelled, with or without brackets. -/
inductive Spelling where
  | bare (k : BareKey)
  | bracketed (x : Bracketed)

namespace Spelling

/-- The step that is spelled. -/
def step : Spelling → Step
  | bare k => .key k.text
  | bracketed x => x.step

/-- The spelling of a first step. -/
def text : Spelling → Text
  | bare k => k.text
  | bracketed x => '[' :: (x.text ++ [']'])

/-- The spelling of a further step. A bare key follows a dot in any case, and brackets may. -/
def furtherText (dotted : Bool) : Spelling → Text
  | bare k => '.' :: k.text
  | bracketed x => (if dotted then ['.'] else []) ++ '[' :: (x.text ++ [']'])

end Spelling

/-- A spelling of a list of steps that does not begin with the context word. -/
structure SpelledPath where
  first : Spelling
  first_ne : first.step ≠ .key contextWord
  further : List (Bool × Spelling)

namespace SpelledPath

/-- The path as it is spelled. -/
def text (p : SpelledPath) : Text :=
  p.first.text ++ p.further.flatMap fun s => s.2.furtherText s.1

/-- The steps that are spelled. -/
def steps (p : SpelledPath) : Path := p.first.step :: p.further.map fun s => s.2.step

end SpelledPath

section Escaping

variable (q : Quote)

theorem escape_cons_of_special {c : Char} (hc : c = '\\' ∨ c = q.char) (t : Text) :
    q.escape (c :: t) = '\\' :: c :: q.escape t := by
  simp only [Quote.escape, List.flatMap_cons, if_pos hc, List.cons_append, List.nil_append]

theorem escape_cons_of_plain {c : Char} (hc : ¬ (c = '\\' ∨ c = q.char)) (t : Text) :
    q.escape (c :: t) = c :: q.escape t := by
  simp only [Quote.escape, List.flatMap_cons, if_neg hc, List.cons_append, List.nil_append]

/-- Dropping the escapes of an escaped text gives the text back. -/
theorem dropEscapes_escape (t : Text) : Text.dropEscapes (q.escape t) = t := by
  induction t with
  | nil => rfl
  | cons c t ih =>
      by_cases hc : c = '\\' ∨ c = q.char
      · rw [escape_cons_of_special q hc, Text.dropEscapes, ih]
      · rw [escape_cons_of_plain q hc, dropEscapes_cons (not_or.1 hc).1, ih]

/-- A literal is read as the text that it was spelled for. -/
theorem literalValue_spell (t : Text) : Text.literalValue (q.spell t) = t := by
  rw [Quote.spell, Text.literalValue, if_pos (isLiteral_enclose q _), Quote.enclose]
  simp [dropEscapes_escape]

theorem bracketEnd?_some_slash (quote d : Char) (cs : Text) :
    bracketEnd? (some quote) ('\\' :: d :: cs) =
      (bracketEnd? (some quote) cs).map fun p => ('\\' :: d :: p.1, p.2) := by
  rw [bracketEnd?, if_pos rfl]

/-- An escaped text does not end the quote that it is escaped for. -/
theorem passes_escape (t : Text) : Passes (some q) (q.escape t) := by
  intro cs
  induction t with
  | nil => simp [Quote.escape]
  | cons c t ih =>
      rw [Option.map_some] at ih ⊢
      by_cases hc : c = '\\' ∨ c = q.char
      · rw [escape_cons_of_special q hc, List.cons_append, List.cons_append,
          bracketEnd?_some_slash, ih, Option.map_map]
        rfl
      · obtain ⟨hslash, hquote⟩ := not_or.1 hc
        rw [escape_cons_of_plain q hc, List.cons_append, bracketEnd?_some_cons _ hslash,
          if_neg hquote, ih, Option.map_map]
        rfl

theorem passes_spell (t : Text) : Passes none (q.spell t) :=
  bracketEnd?_enclose q (passes_escape q t)

/-- Outside of quotes the search for a closing bracket passes over any text without the signs it
looks for. -/
theorem passes_none {w : Text} (h : ∀ c ∈ w, isQuote c = false ∧ c ≠ ']') : Passes none w := by
  intro cs
  induction w with
  | nil => simp
  | cons c w ih =>
      obtain ⟨hquote, hclose⟩ := h c (by simp)
      have htail := ih fun d hd => h d (List.mem_cons_of_mem c hd)
      rw [Option.map_none] at htail ⊢
      rw [List.cons_append, bracketEnd?_none_cons hclose, hquote, if_neg (by simp), htail,
        Option.map_map]
      rfl

end Escaping

namespace FieldText

variable (f : FieldText) (sign : Comparison) (value : Text)

theorem excludes {c : Char} (hc : c ∈ f.text) :
    isQuote c = false ∧ c ≠ ']' ∧ c ≠ '=' ∧ c ≠ '!' := by
  have hplain := f.plain c hc
  simp only [List.mem_cons, List.not_mem_nil, or_false, not_or] at hplain
  obtain ⟨hdouble, hsingle, -, -, hclose, heq, hne⟩ := hplain
  exact ⟨by simp [isQuote, hdouble, hsingle], hclose, heq, hne⟩

theorem signless : ∀ c ∈ f.text, isQuote c = false ∧ c ≠ '=' ∧ c ≠ '!' :=
  fun _ hc => ⟨(f.excludes hc).1, (f.excludes hc).2.2⟩

theorem compare_ne_nil : f.compare sign value ≠ [] :=
  List.append_ne_nil_of_left_ne_nil f.ne_nil _

theorem trim_compare : Text.trim (f.compare sign value) = f.compare sign value :=
  trim_comparing f.ne_nil f.trim_text sign .double _

theorem passes_compare : Passes none (f.compare sign value) := by
  have hfield := passes_none fun c hc => ⟨(f.excludes hc).1, (f.excludes hc).2.1⟩
  have hvalue := passes_spell .double value
  exact hfield.append ((passes_inert none (inert_sign sign)).append hvalue)

theorem parse_compare :
    Predicate.parse (f.compare sign value) = .ok (some ⟨f.text, sign, value⟩) :=
  parse_comparing f.ne_nil f.trim_text f.signless sign (literalValue_spell .double value)

end FieldText

namespace Bracketed

/-- What is spelled between brackets leaves no quote open and does not close the brackets. -/
theorem passes (x : Bracketed) : Passes none x.text := by
  cases x with
  | key q k h => exact passes_spell q k
  | index n h => exact passes_inert none (inert_ofNat n)
  | comparison quoted f sign value =>
      cases quoted with
      | false => exact f.passes_compare sign value
      | true => exact passes_spell .single _

theorem bracketEnd?_text (x : Bracketed) (rest : Text) :
    bracketEnd? none (x.text ++ ']' :: rest) = some (x.text, rest) := by
  have hpass := x.passes (']' :: rest)
  have hend : bracketEnd? none (']' :: rest) = some ([], rest) := by
    rw [bracketEnd?, if_pos rfl]
  rw [Option.map_none, hend] at hpass
  rw [hpass]
  simp

/-- Brackets are read as the step that was spelled in them. -/
theorem bracketStep_text (path : Text) (x : Bracketed) :
    bracketStep path x.text = .ok x.step := by
  cases x with
  | key q k h =>
      exact bracketStep_literal (List.cons_ne_nil _ _) (trim_enclose q _) (isLiteral_enclose q _)
        (literalValue_spell q k) h
  | index n h =>
      have hstops : Text.Stops isQuote (Text.ofNat n) :=
        fun c hc => (signless_ofNat n c (List.mem_of_mem_head? hc)).1
      exact bracketStep_digits Nat.toDigits_ne_nil (trim_ofNat n) (isLiteral_eq_false hstops)
        (divide?_eq_none (signless_ofNat n)) (all_isAsciiDigit_ofNat n) (digits64?_ofNat h)
  | comparison quoted f sign value =>
      have hparse := f.parse_compare sign value
      cases quoted with
      | false =>
          have hstops :=
            stops_quote_append f.ne_nil f.signless (sign.sign ++ Quote.double.spell value)
          exact bracketStep_of_parse_eq_some (f.compare_ne_nil sign value)
            (f.trim_compare sign value) (literalValue_of_stops hstops) hparse
      | true =>
          exact bracketStep_of_parse_eq_some (List.cons_ne_nil _ _) (trim_enclose .single _)
            (literalValue_spell .single _) hparse

end Bracketed

namespace Spelling

variable {path : Text} (s : Spelling)

/-- A further step begins with a dot or a bracket. -/
theorem stops_furtherText (dotted : Bool) (rest : Text) :
    Text.Stops isBareKeyChar (s.furtherText dotted ++ rest) := by
  cases s with
  | bare k => exact Text.stops_cons.2 rfl
  | bracketed x =>
      cases dotted with
      | true => exact Text.stops_cons.2 rfl
      | false => exact Text.stops_cons.2 rfl

/-- A spelled step is read as its step, whether or not a step has to come. -/
theorem stepsFrom_text (expecting : Bool) {rest : Text} (hrest : Text.Stops isBareKeyChar rest) :
    stepsFrom path expecting (s.text ++ rest) =
      (stepsFrom path false rest).map (s.step :: ·) := by
  cases s with
  | bare k => exact stepsFrom_bareKey k.ne_nil k.bare expecting hrest
  | bracketed x =>
      rw [text, List.cons_append, List.append_assoc, List.cons_append, List.nil_append]
      exact stepsFrom_bracket expecting (x.bracketEnd?_text rest) (x.bracketStep_text path)

theorem stepsFrom_furtherText (dotted : Bool) {rest : Text}
    (hrest : Text.Stops isBareKeyChar rest) :
    stepsFrom path false (s.furtherText dotted ++ rest) =
      (stepsFrom path false rest).map (s.step :: ·) := by
  cases s with
  | bare k =>
      rw [furtherText, List.cons_append, stepsFrom_dot]
      exact (bare k).stepsFrom_text true hrest
  | bracketed x =>
      cases dotted with
      | true =>
          have hdot : furtherText true (bracketed x) ++ rest =
              '.' :: ((bracketed x).text ++ rest) := rfl
          rw [hdot, stepsFrom_dot, stepsFrom_text _ true hrest]
      | false => exact (bracketed x).stepsFrom_text false hrest

theorem text_ne_nil : s.text ≠ [] := by
  cases s with
  | bare k => exact k.ne_nil
  | bracketed x => exact List.cons_ne_nil _ _

theorem stops_text (rest : Text) : Text.Stops isBlank (s.text ++ rest) := by
  cases s with
  | bare k =>
      obtain ⟨c, cs, hcs⟩ := List.exists_cons_of_ne_nil k.ne_nil
      have hstops := Text.stops_trim k.text
      rw [k.trim_text, hcs] at hstops
      rw [text, hcs]
      exact Text.stops_cons.2 (Text.stops_cons.1 hstops)
  | bracketed x => exact Text.stops_cons.2 rfl

theorem getLast?_text : ∀ c ∈ s.text.getLast?, isBlank c = false := by
  intro c hc
  cases s with
  | bare k =>
      have hlast := Text.getLast?_trim k.text
      rw [k.trim_text] at hlast
      exact hlast c hc
  | bracketed x =>
      rw [text, ← List.cons_append, List.getLast?_concat, Option.mem_def, Option.some.injEq] at hc
      rw [← hc]
      rfl

theorem exists_furtherText_eq_append (dotted : Bool) : ∃ w, s.furtherText dotted = w ++ s.text := by
  cases s with
  | bare k => exact ⟨['.'], rfl⟩
  | bracketed x => exact ⟨if dotted then ['.'] else [], rfl⟩

end Spelling

/-- Further steps are read one after another. -/
theorem stepsFrom_further {path : Text} (ss : List (Bool × Spelling)) :
    stepsFrom path false (ss.flatMap fun s => s.2.furtherText s.1) =
      .ok (ss.map fun s => s.2.step) := by
  induction ss with
  | nil =>
      rw [List.flatMap_nil, stepsFrom, if_neg (by simp)]
      rfl
  | cons s ss ih =>
      have hstops : Text.Stops isBareKeyChar (ss.flatMap fun s => s.2.furtherText s.1) := by
        cases ss with
        | nil => exact Text.stops_nil _
        | cons t ts => exact t.2.stops_furtherText t.1 _
      rw [List.flatMap_cons, s.2.stepsFrom_furtherText s.1 hstops, ih]
      rfl

namespace SpelledPath

variable (p : SpelledPath)

theorem stepsFrom_text (path : Text) : stepsFrom path true p.text = .ok p.steps := by
  have hstops : Text.Stops isBareKeyChar (p.further.flatMap fun s => s.2.furtherText s.1) := by
    cases p.further with
    | nil => exact Text.stops_nil _
    | cons s ss => exact s.2.stops_furtherText s.1 _
  rw [text, p.first.stepsFrom_text true hstops, stepsFrom_further]
  rfl

/-- A spelled path ends like a spelled step. -/
theorem getLast?_text : ∀ c ∈ p.text.getLast?, isBlank c = false := by
  intro c hc
  obtain hnil | ⟨init, last, hlast⟩ := List.eq_nil_or_concat p.further
  · rw [text, hnil, List.flatMap_nil, List.append_nil] at hc
    exact p.first.getLast?_text c hc
  · obtain ⟨w, hw⟩ := last.2.exists_furtherText_eq_append last.1
    rw [text, hlast, List.concat_eq_append, List.flatMap_append, List.flatMap_singleton, hw,
      ← List.append_assoc, ← List.append_assoc,
      Text.getLast?_append_of_ne_nil last.2.text_ne_nil] at hc
    exact last.2.getLast?_text c hc

/-- A lone dot spells no step. -/
theorem text_ne_dot : p.text ≠ ['.'] := by
  intro hdot
  have hsteps := p.stepsFrom_text []
  rw [hdot, stepsFrom, if_pos rfl] at hsteps
  exact absurd hsteps (by simp)

/-- A spelled path is read as the steps that it was spelled for. -/
theorem read_spelled : Path.read p.text = .ok p.steps := by
  have htrim : Text.trim p.text = p.text :=
    Text.trim_eq_self (p.first.stops_text _) p.getLast?_text
  have hne : ¬ (p.text = [] ∨ p.text = ['.']) :=
    not_or.2 ⟨List.append_ne_nil_of_left_ne_nil p.first.text_ne_nil _, p.text_ne_dot⟩
  have hkeep : Path.dropContext p.steps = p.steps := by
    unfold Path.dropContext
    split
    · rename_i h
      rw [steps, List.cons.injEq] at h
      exact absurd h.1 p.first_ne
    · rfl
  simp only [Path.read, htrim, if_neg hne, p.stepsFrom_text, Except.map, hkeep]

/-- A comparison in quotes with both quotes and a backslash in its value, the largest index after a
dot, a bare key, and a key with a quote of its own kind. -/
def sample : SpelledPath where
  first := .bracketed
    (.comparison true ⟨"title".toList, by decide, by decide, by simp⟩ .notEqual
      "it's \"a\\b\"".toList)
  first_ne := Step.noConfusion
  further :=
    [(true, .bracketed (.index 18446744073709551615 (by decide))),
      (false, .bare ⟨"b c".toList, by decide, by decide, by simp [isBareKeyChar]⟩),
      (false, .bracketed (.key .single "d'].e".toList (by decide)))]

theorem read_sample :
    sample.text =
      "['title!=\"it\\'s \\\\\"a\\\\\\\\b\\\\\"\"'].[18446744073709551615].b c['d\\'].e']".toList ∧
      Path.read sample.text =
        .ok [.predicate ⟨"title".toList, .notEqual, "it's \"a\\b\"".toList⟩,
          .index 18446744073709551615, .key "b c".toList, .key "d'].e".toList] :=
  ⟨by decide +kernel, sample.read_spelled⟩

end SpelledPath

end MustachePath
