import MustachePath.Proofs.Escapes
import MustachePath.Proofs.SignSearch

/-!
# Reading written paths

A comparison divides at its own sign (`divide?_comparing`), a quoted text stands for what it
encloses, and a decimal number for itself. So brackets are read as the step they were written for
(`bracketStep_inside`), and a whole path as its steps (`WrittenPath.read_text`).
-/

namespace MustachePath

/-- The search for a sign of comparison passes over a text without quotes and signs. -/
theorem divide?_append {w : Text} (h : ∀ c ∈ w, isQuote c = false ∧ c ≠ '=' ∧ c ≠ '!')
    (cs : Text) : divide? (w ++ cs) = (divide? cs).map (Divided.before w) := by
  rw [divide?_eq_divideFrom?, divide?_eq_divideFrom?]
  induction w with
  | nil =>
      have hid : Divided.before [] = id := rfl
      rw [List.nil_append, hid, Option.map_id_fun, id]
  | cons c w ih =>
      obtain ⟨hquote, heq, hne⟩ := h c (by simp)
      have htail := ih fun d hd => h d (List.mem_cons_of_mem c hd)
      have hcons : divideFrom? none (c :: (w ++ cs)) =
          (divideFrom? none (w ++ cs)).map (Divided.before [c]) :=
        divideFrom?_none_cons hquote fun _ => ⟨heq, hne⟩
      rw [List.cons_append, hcons, htail, Option.map_map]
      rfl

theorem divide?_eq_none {w : Text} (h : ∀ c ∈ w, isQuote c = false ∧ c ≠ '=' ∧ c ≠ '!') :
    divide? w = none := by
  have hend := divide?_append h []
  rw [List.append_nil] at hend
  rw [hend, divide?_eq_divideFrom?, divideFrom?, Option.map_none]

theorem KeyText.signless (k : KeyText) :
    ∀ c ∈ k.text, isQuote c = false ∧ c ≠ '=' ∧ c ≠ '!' := by
  intro c hc
  obtain ⟨hdouble, hsingle, -⟩ := k.inert.excludes hc
  have hplain := k.plain c hc
  simp only [isPlainKeyChar, Bool.and_eq_true, decide_eq_true_eq] at hplain
  exact ⟨by simp [isQuote, hdouble, hsingle], hplain.1.1.1, hplain.2⟩

theorem signless_ofNat (n : Nat) :
    ∀ c ∈ Text.ofNat n, isQuote c = false ∧ c ≠ '=' ∧ c ≠ '!' := by
  intro c hc
  have hexcl := excludes_of_isDigit (isDigit_ofNat hc)
  simp only [List.mem_cons, List.not_mem_nil, or_false, not_or] at hexcl
  obtain ⟨hdouble, hsingle, -, -, -, -, -, heq, hne⟩ := hexcl
  exact ⟨by simp [isQuote, hdouble, hsingle], heq, hne⟩

theorem isLiteral_eq_false {cs : Text} (h : Text.Stops isQuote cs) :
    Text.isLiteral cs = false := by
  cases cs with
  | nil => rfl
  | cons c cs =>
      have hquote : c ≠ '"' ∧ c ≠ '\'' := by
        simpa [isQuote] using Text.stops_cons.1 h
      simp [Text.isLiteral, Text.isDelimitedBy, hquote.1, hquote.2]

theorem isLiteral_enclose (q : Quote) (t : Text) : Text.isLiteral (q.enclose t) = true := by
  cases q with
  | double =>
      simp [Text.isLiteral, Text.isDelimitedBy, Quote.enclose, Quote.char, List.getLast?_cons]
  | single =>
      simp [Text.isLiteral, Text.isDelimitedBy, Quote.enclose, Quote.char, List.getLast?_cons]

theorem dropEscapes_eq_self {t : Text} (h : '\\' ∉ t) : Text.dropEscapes t = t := by
  induction t with
  | nil => rfl
  | cons c t ih =>
      simp only [List.mem_cons, not_or] at h
      rw [dropEscapes_cons (Ne.symm h.1), ih h.2]

theorem literalValue_enclose (q : Quote) {t : Text} (h : '\\' ∉ t) :
    Text.literalValue (q.enclose t) = t := by
  rw [Text.literalValue, if_pos (isLiteral_enclose q t), Quote.enclose]
  simp [dropEscapes_eq_self h]

theorem literalValue_of_stops {t : Text} (h : Text.Stops isQuote t) :
    Text.literalValue t = t := by
  rw [Text.literalValue, isLiteral_eq_false h, if_neg (by simp)]

theorem trim_enclose (q : Quote) (t : Text) : Text.trim (q.enclose t) = q.enclose t := by
  apply Text.trim_eq_self
  · exact Text.stops_cons.2 q.isBlank_char
  · intro c hc
    have hlast : (q.enclose t).getLast? = some q.char := by
      rw [Quote.enclose, ← List.cons_append, List.getLast?_concat]
    rw [hlast, Option.mem_def, Option.some.injEq] at hc
    rw [← hc]
    exact q.isBlank_char

theorem Inert.slash_notMem {t : Text} (h : Inert t) : '\\' ∉ t :=
  fun hc => (h.excludes hc).2.2.2.2.2.2 rfl

section Comparing

variable {field : Text} (hne : field ≠ []) (htrim : Text.trim field = field)
variable (hfield : ∀ c ∈ field, isQuote c = false ∧ c ≠ '=' ∧ c ≠ '!')

include hne hfield in
theorem stops_quote_append (rest : Text) : Text.Stops isQuote (field ++ rest) := by
  obtain ⟨c, cs, hcs⟩ := List.exists_cons_of_ne_nil hne
  rw [hcs, List.cons_append]
  exact Text.stops_cons.2 (hfield c (by simp [hcs])).1

include hne htrim in
theorem trim_comparing (sign : Comparison) (q : Quote) (t : Text) :
    Text.trim (field ++ (sign.sign ++ q.enclose t)) = field ++ (sign.sign ++ q.enclose t) := by
  apply Text.trim_eq_self
  · obtain ⟨c, cs, hcs⟩ := List.exists_cons_of_ne_nil hne
    have hstops := Text.stops_trim field
    rw [htrim, hcs] at hstops
    rw [hcs, List.cons_append]
    exact Text.stops_cons.2 (Text.stops_cons.1 hstops)
  · intro c hc
    have hlast : (field ++ (sign.sign ++ q.enclose t)).getLast? = some q.char := by
      rw [Quote.enclose, ← List.cons_append, ← List.append_assoc, ← List.append_assoc,
        List.getLast?_concat]
    rw [hlast, Option.mem_def, Option.some.injEq] at hc
    rw [← hc]
    exact q.isBlank_char

include hfield in
/-- A comparison divides at its own sign. -/
theorem divide?_comparing (sign : Comparison) (q : Quote) (t : Text) :
    divide? (field ++ (sign.sign ++ q.enclose t)) = some ⟨field, sign, q.enclose t⟩ := by
  have hsign : divide? (sign.sign ++ q.enclose t) = some ⟨[], sign, q.enclose t⟩ := by
    rw [divide?_eq_divideFrom?]
    cases sign with
    | equal => rfl
    | notEqual => rfl
  rw [divide?_append hfield, hsign]
  simp [Divided.before]

include hne htrim hfield in
/-- A comparison is read as its field, its sign and its value. -/
theorem parse_comparing (sign : Comparison) {q : Quote} {t value : Text}
    (hvalue : Text.literalValue (q.enclose t) = value) :
    Predicate.parse (field ++ (sign.sign ++ q.enclose t)) = .ok (some ⟨field, sign, value⟩) := by
  have hstops := stops_quote_append hne hfield []
  rw [List.append_nil] at hstops
  simp only [Predicate.parse, divide?_comparing hfield, htrim, trim_enclose,
    literalValue_of_stops hstops, hvalue, if_neg hne]

end Comparing

namespace WrittenComparison

variable (w : WrittenComparison)

theorem stops_quote (rest : Text) : Text.Stops isQuote (w.field.text ++ rest) :=
  stops_quote_append w.field.ne_nil w.field.signless rest

theorem slash_notMem : '\\' ∉ w.text :=
  fun hc => w.unbracketed _ hc (by simp)

theorem trim_text : Text.trim w.text = w.text :=
  trim_comparing w.field.ne_nil w.field_trim w.sign w.quote w.value

theorem parse_text : Predicate.parse w.text = .ok (some ⟨w.field.text, w.sign, w.value⟩) :=
  parse_comparing w.field.ne_nil w.field_trim w.field.signless w.sign
    (literalValue_enclose w.quote w.value_inert.slash_notMem)

end WrittenComparison

section Brackets

variable {path inner body : Text}

theorem bracketStep_of_parse_eq_some {p : Predicate} (hne : inner ≠ [])
    (htrim : Text.trim inner = inner) (hbody : Text.literalValue inner = body)
    (hparse : Predicate.parse body = .ok (some p)) :
    bracketStep path inner = .ok (.predicate p) := by
  simp only [bracketStep, htrim, if_neg hne, hbody, hparse]
  rfl

theorem bracketStep_literal (hne : inner ≠ []) (htrim : Text.trim inner = inner)
    (hlit : Text.isLiteral inner = true) (hbody : Text.literalValue inner = body)
    (hdivide : divide? body = none) : bracketStep path inner = .ok (.key body) := by
  simp only [bracketStep, htrim, if_neg hne, hbody, Predicate.parse, hdivide, hlit]
  rfl

theorem bracketStep_digits {n : Nat} (hne : inner ≠ []) (htrim : Text.trim inner = inner)
    (hlit : Text.isLiteral inner = false) (hdivide : divide? inner = none)
    (hall : inner.all Text.isAsciiDigit = true) (hn : Text.digits64? inner = some n) :
    bracketStep path inner = .ok (.index n) := by
  have hbody : Text.literalValue inner = inner := by
    rw [Text.literalValue, hlit, if_neg (by simp)]
  simp only [bracketStep, htrim, if_neg hne, hbody, Predicate.parse, hdivide, hlit, hall, hn]
  rfl

end Brackets

theorem all_isAsciiDigit_ofNat (n : Nat) : (Text.ofNat n).all Text.isAsciiDigit = true := by
  rw [List.all_eq_true]
  intro c hc
  have hrange := Char.isDigit_iff_toNat.1 (isDigit_ofNat hc)
  rw [Text.isAsciiDigit, Bool.and_eq_true, decide_eq_true_eq, decide_eq_true_eq]
  exact hrange

theorem trim_ofNat (n : Nat) : Text.trim (Text.ofNat n) = Text.ofNat n := by
  have hblank : ∀ c ∈ Text.ofNat n, isBlank c = false :=
    fun c hc => isBlank_eq_false_of_isNameChar (isNameChar_of_isDigit (isDigit_ofNat hc))
  apply Text.trim_eq_self
  · intro c hc
    exact hblank c (List.mem_of_mem_head? hc)
  · intro c hc
    exact hblank c (List.mem_of_getLast? hc)

theorem decimalValue_ofNat (n : Nat) : Text.decimalValue (Text.ofNat n) = n :=
  Nat.ofDigitChars_ten_toDigits

theorem digits64?_ofNat {n : Nat} (h : n < Nat.pow 2 64) :
    Text.digits64? (Text.ofNat n) = some n := by
  rw [Text.digits64?, decimalValue_ofNat,
    if_pos ⟨Nat.toDigits_ne_nil, all_isAsciiDigit_ofNat n, h⟩]

theorem Inside.text_ne_nil (x : Inside) : x.text ≠ [] := by
  cases x with
  | index n h => exact Nat.toDigits_ne_nil
  | key q k => exact List.cons_ne_nil _ _
  | comparison outer w =>
      cases outer with
      | none =>
          intro hnil
          exact w.field.ne_nil (List.append_eq_nil_iff.1 hnil).1
      | some q => exact List.cons_ne_nil _ _

/-- Brackets are read as the step that they were written for. -/
theorem bracketStep_inside (path : Text) (x : Inside) :
    bracketStep path x.text = .ok x.step := by
  have hne := x.text_ne_nil
  cases x with
  | index n h =>
      have hstops : Text.Stops isQuote (Text.ofNat n) :=
        fun c hc => (signless_ofNat n c (List.mem_of_mem_head? hc)).1
      exact bracketStep_digits hne (trim_ofNat n) (isLiteral_eq_false hstops)
        (divide?_eq_none (signless_ofNat n)) (all_isAsciiDigit_ofNat n) (digits64?_ofNat h)
  | key q k =>
      exact bracketStep_literal hne (trim_enclose q k.text) (isLiteral_enclose q k.text)
        (literalValue_enclose q k.inert.slash_notMem) (divide?_eq_none k.signless)
  | comparison outer w =>
      cases outer with
      | none =>
          have hstops := w.stops_quote (w.sign.sign ++ w.quote.enclose w.value)
          exact bracketStep_of_parse_eq_some hne w.trim_text (literalValue_of_stops hstops)
            w.parse_text
      | some q =>
          exact bracketStep_of_parse_eq_some hne (trim_enclose q w.text)
            (literalValue_enclose q w.slash_notMem) w.parse_text

section Steps

variable {path : Text}

theorem stepsFrom_bracket {cs inner rest : Text} {s : Step} (expecting : Bool)
    (hend : bracketEnd? none cs = some (inner, rest)) (hstep : bracketStep path inner = .ok s) :
    stepsFrom path expecting ('[' :: cs) = (stepsFrom path false rest).map (s :: ·) := by
  rw [stepsFrom]
  split
  · rename_i h
    rw [hend] at h
    exact absurd h (by simp)
  · rename_i h
    rw [hend, Option.some.injEq, Prod.mk.injEq] at h
    obtain ⟨rfl, rfl⟩ := h
    rw [hstep]
    cases stepsFrom path false rest with
    | error e => rfl
    | ok steps => rfl

theorem stepsFrom_dot (cs : Text) : stepsFrom path false ('.' :: cs) = stepsFrom path true cs := by
  rw [stepsFrom, if_neg (by simp)]

theorem isBareKeyChar_of_isNameChar {c : Char} (h : isNameChar c = true) :
    isBareKeyChar c = true := by
  have hdot : c ≠ '.' := by
    rintro rfl
    exact absurd h (by decide)
  have hbracket : c ≠ '[' := by
    rintro rfl
    exact absurd h (by decide)
  simp [isBareKeyChar, hdot, hbracket]

/-- A text without the signs of further steps is read as a key up to the next step. -/
theorem stepsFrom_bareKey {k rest : Text} (hne : k ≠ []) (hbare : ∀ c ∈ k, isBareKeyChar c = true)
    (expecting : Bool) (hrest : Text.Stops isBareKeyChar rest) :
    stepsFrom path expecting (k ++ rest) = (stepsFrom path false rest).map (.key k :: ·) := by
  obtain ⟨c, cs, rfl⟩ := List.exists_cons_of_ne_nil hne
  have htail : ∀ d ∈ cs, isBareKeyChar d = true :=
    fun d hd => hbare d (List.mem_cons_of_mem c hd)
  have hfirst := hbare c (by simp)
  simp only [isBareKeyChar, Bool.and_eq_true, decide_eq_true_eq] at hfirst
  rw [List.cons_append, stepsFrom, List.dropWhile_append_of_pos htail,
    List.takeWhile_append_of_pos htail, Text.dropWhile_eq_self_of_stops hrest,
    Text.takeWhile_eq_nil_of_stops hrest, List.append_nil]
  · cases stepsFrom path false rest with
    | error e => rfl
    | ok steps => rfl
  · exact hfirst.2
  · exact hfirst.1

/-- A name is read as a key up to the next step. -/
theorem stepsFrom_name (n : Name) {rest : Text} (expecting : Bool)
    (hrest : Text.Stops isBareKeyChar rest) :
    stepsFrom path expecting (n.text ++ rest) =
      (stepsFrom path false rest).map (.key n.text :: ·) :=
  stepsFrom_bareKey n.isName.1 (fun c hc => isBareKeyChar_of_isNameChar (n.isName.2 c hc))
    expecting hrest

/-- Each suffix is read as its step. -/
theorem stepsFrom_suffixes (ss : List Suffix) :
    stepsFrom path false (ss.flatMap Suffix.text) = .ok (ss.map Suffix.step) := by
  induction ss with
  | nil =>
      rw [List.flatMap_nil, stepsFrom, if_neg (by simp)]
      rfl
  | cons s ss ih =>
      rw [List.flatMap_cons, List.map_cons]
      cases s with
      | field n =>
          have hstops : Text.Stops isBareKeyChar (ss.flatMap Suffix.text) :=
            stops_suffixes rfl rfl ss
          rw [Suffix.text, List.cons_append, stepsFrom_dot, stepsFrom_name n true hstops, ih]
          rfl
      | bracket dotted x =>
          have hend := bracketEnd?_inside x (ss.flatMap Suffix.text)
          have hread : ∀ expecting, stepsFrom path expecting
              ('[' :: (x.text ++ ']' :: ss.flatMap Suffix.text)) =
                .ok (x.step :: ss.map Suffix.step) := by
            intro expecting
            rw [stepsFrom_bracket expecting hend (bracketStep_inside path x), ih]
            rfl
          cases dotted with
          | true => rw [Suffix.text_dotted, stepsFrom_dot, hread true, Suffix.step]
          | false => rw [Suffix.text_undotted, hread false, Suffix.step]

end Steps

namespace WrittenPath

variable (p : WrittenPath)

theorem trim_text : Text.trim p.text = p.text := by
  apply Text.trim_eq_self
  · obtain ⟨c, cs, hc, hcs⟩ := p.exists_text_eq_cons
    rw [hcs]
    exact Text.stops_cons.2 (IsName.excludes hc).1
  · intro c hc
    exact (p.isBlank_getLast? c hc).1

/-- A written path is read as its steps. -/
theorem read_text : Path.read p.text = .ok p.steps := by
  have hdot : p.text ≠ ['.'] := by
    obtain ⟨c, cs, hc, hcs⟩ := p.exists_text_eq_cons
    rw [hcs]
    intro h
    rw [List.cons.injEq] at h
    rw [h.1] at hc
    exact absurd hc (by decide)
  have hne : ¬ (p.text = [] ∨ p.text = ['.']) := not_or.2 ⟨p.text_ne_nil, hdot⟩
  have hsteps : ∀ path, stepsFrom path true p.text = .ok p.steps := by
    intro path
    rw [text, stepsFrom_name p.head true (stops_suffixes rfl rfl _), stepsFrom_suffixes]
    rfl
  have hkeep : Path.dropContext p.steps = p.steps := by
    unfold Path.dropContext
    split
    · rename_i h
      rw [steps, List.cons.injEq, Step.key.injEq] at h
      exact absurd h.1 p.head_ne
    · rfl
  simp only [Path.read, p.trim_text, if_neg hne, hsteps, Except.map, hkeep]

end WrittenPath

end MustachePath
