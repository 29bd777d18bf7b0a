import MustachePath.Proofs.Calls
import MustachePath.Proofs.PathTags
import MustachePath.Proofs.Subexpressions

/-!
# Native syntax stays

A native path is one token, whatever its keys hold between their quotes, and so is a pair with a
quoted value. Hence a tag with a native path, alone or as the first argument of a helper with pairs
after it, is read as it was written, and none of its pairs shapes the result: the template stays
byte for byte (`preprocess_nativeTag`).
-/

namespace MustachePath

/-- What a native path may have between brackets: decimal digits, or a quoted key without the signs
of a comparison. -/
inductive NativeKey where
  | index (digits : Text) (hne : digits ≠ []) (hdigits : ∀ c ∈ digits, isDecimalDigit c = true)
  | literal (q : Quote) (k : Text) (hk : ∀ c ∈ k, c ≠ q.char ∧ isPlainKeyChar c = true)
      (hfree : ∀ c ∈ k, c ∉ ['[', ']', '{', '}'])

/-- The text between the brackets. -/
def NativeKey.text : NativeKey → Text
  | index digits _ _ => digits
  | literal q k _ _ => q.enclose k

/-- A further step of a native path. -/
inductive NativeStep where
  | field (n : Name)
  | bracket (x : NativeKey)

/-- The step as it is written. -/
def NativeStep.text : NativeStep → Text
  | field n => '.' :: n.text
  | bracket x => '.' :: '[' :: (x.text ++ [']'])

/-- A path that the template language understands by itself. -/
structure NativePath where
  head : Name
  steps : List NativeStep

/-- The path as it is written. -/
def NativePath.text (p : NativePath) : Text := p.head.text ++ p.steps.flatMap NativeStep.text

/-- A pair with a value in double quotes. -/
structure QuotedPair where
  key : Name
  value : Text
  plain : ∀ c ∈ value, c ∉ ['"', '\\', '{', '}']

/-- The pair as it is written. -/
def QuotedPair.text (x : QuotedPair) : Text := x.key.text ++ '=' :: '"' :: (x.value ++ ['"'])

/-- Pairs, each after a space. -/
def spacedPairs (pairs : List QuotedPair) : Text := pairs.flatMap fun x => ' ' :: x.text

/-- A tag with a native path, alone or after a helper and before pairs. -/
inductive NativeTag where
  | path (p : NativePath)
  | call (form : Form) (helper : Name) (p : NativePath) (pairs : List QuotedPair)

namespace NativeTag

/-- A helper, a path and pairs, with single spaces between them. -/
def callText (helper : Name) (p : NativePath) (pairs : List QuotedPair) : Text :=
  helper.text ++ ' ' :: (p.text ++ spacedPairs pairs)

/-- The inner text of the tag. -/
def text : NativeTag → Text
  | path p => p.text
  | call form helper p pairs => form.write (callText helper p pairs)

/-- Whether a lone path is no widget helper, and the pairs of a call do not shape the result. -/
def Unshaped (o : Options) : NativeTag → Prop
  | path p => p.text ∉ o.widgetHelpers
  | call _ _ _ pairs => ∀ x ∈ pairs, x.key.text ∉ o.shapingKeys

end NativeTag

namespace NativeKey

variable (x : NativeKey)

theorem excludes_of_isDecimalDigit {c : Char} (h : isDecimalDigit c = true) :
    c ∉ ['"', '\'', '[', ']', '{', '}'] := by
  intro hmem
  simp only [List.mem_cons, List.not_mem_nil, or_false] at hmem
  obtain rfl | rfl | rfl | rfl | rfl | rfl := hmem <;> exact absurd h (by decide)

theorem mem_text : ∀ c ∈ x.text, c ∉ ['[', ']', '{', '}'] := by
  intro c hc hmem
  cases x with
  | index digits hne hdigits =>
      exact excludes_of_isDecimalDigit (hdigits c hc)
        (List.mem_cons_of_mem _ (List.mem_cons_of_mem _ hmem))
  | literal q k hk hfree =>
      have hquote : q.char ∉ ['[', ']', '{', '}'] := by cases q <;> decide
      simp only [text, Quote.enclose, List.mem_cons, List.mem_append, List.not_mem_nil, or_false]
        at hc
      obtain rfl | hc | rfl := hc
      · exact hquote hmem
      · exact hfree c hc hmem
      · exact hquote hmem

theorem readBracket?_text (rest : Text) :
    Token.readBracket? ('[' :: (x.text ++ ']' :: rest)) = some ('[' :: (x.text ++ [']']), rest) :=
  Token.readBracket?_append (fun h => x.mem_text _ h (by simp)) (fun h => x.mem_text _ h (by simp))
    rest

theorem readNativeBracket?_text (rest : Text) :
    Token.readNativeBracket? ('[' :: (x.text ++ ']' :: rest)) =
      some ('[' :: (x.text ++ [']']), rest) := by
  cases x with
  | index digits hne hdigits =>
      have hstops : Text.Stops isQuote (digits ++ ']' :: rest) := by
        obtain ⟨d, ds, rfl⟩ := List.exists_cons_of_ne_nil hne
        have hd := excludes_of_isDecimalDigit (hdigits d (by simp))
        simp only [List.mem_cons, not_or] at hd
        rw [List.cons_append, Text.stops_cons]
        simp [isQuote, hd.1, hd.2.1]
      have hread : Token.readWhile? isDecimalDigit (digits ++ ']' :: rest) =
          some (digits, ']' :: rest) :=
        Token.readWhile?_append hne hdigits (Text.stops_cons.2 (by decide))
      rw [text, Token.readNativeBracket?_of_stops hstops, Token.readDigitsEnd?, hread]
      rfl
  | literal q k hk hfree =>
      rw [text, Quote.enclose, List.cons_append, List.append_assoc, List.cons_append,
        List.nil_append, Token.readNativeBracket?_quote, Token.readKeyEnd?_append q hk]
      simp [Token.before]

end NativeKey

namespace NativeStep

variable (s : NativeStep) {rest : Text}

theorem readStep?_text (hr : Text.Stops isNameChar rest) :
    Token.readStep? (s.text ++ rest) = some (s.text, rest) := by
  cases s with
  | field n =>
      rw [text, List.cons_append, Token.readStep?, Token.readName?_append n.isName hr]
      rfl
  | bracket x =>
      have hshape : (bracket x).text ++ rest = '.' :: '[' :: (x.text ++ ']' :: rest) := by
        simp [text]
      rw [hshape, Token.readStep?, Token.readName?_bracket, x.readBracket?_text]
      rfl

theorem readNativeStep?_text (hr : Text.Stops isNameChar rest) :
    Token.readNativeStep? (s.text ++ rest) = some (s.text, rest) := by
  cases s with
  | field n =>
      rw [text, List.cons_append, Token.readNativeStep?, Token.readName?_append n.isName hr]
      rfl
  | bracket x =>
      have hshape : (bracket x).text ++ rest = '.' :: '[' :: (x.text ++ ']' :: rest) := by
        simp [text]
      rw [hshape, Token.readNativeStep?, Token.readName?_bracket, x.readNativeBracket?_text]
      rfl

theorem exists_text_eq_cons : ∃ u, s.text = '.' :: u := by
  cases s with
  | field n => exact ⟨_, rfl⟩
  | bracket x => exact ⟨_, rfl⟩

theorem getLast?_text : ∀ c ∈ s.text.getLast?, isNameChar c = true ∨ c = ']' := by
  intro c hc
  cases s with
  | field n =>
      rw [text, List.getLast?_cons_of_ne_nil n.isName.1] at hc
      exact .inl (n.isName.2 c (List.mem_of_getLast? hc))
  | bracket x =>
      rw [text, ← List.cons_append, ← List.cons_append, List.getLast?_concat] at hc
      exact .inr (Option.some.inj hc).symm

theorem mem_text : ∀ c ∈ s.text, c ≠ '{' ∧ c ≠ '}' := by
  intro c hc
  cases s with
  | field n =>
      obtain rfl | hc := List.mem_cons.1 hc
      · decide
      · exact n.isName.braceless c hc
  | bracket x =>
      simp only [text, List.mem_cons, List.mem_append, List.not_mem_nil, or_false] at hc
      obtain rfl | rfl | hc | rfl := hc
      · decide
      · decide
      · have hfree := x.mem_text c hc
        simp only [List.mem_cons, List.not_mem_nil, or_false, not_or] at hfree
        exact hfree.2.2
      · decide

end NativeStep

/-- Steps begin with a dot, and what follows them comes first if there are none. -/
theorem stops_nativeSteps (test : Char → Bool) (hdot : test '.' = false) {rest : Text}
    (hrest : Text.Stops test rest) (ss : List NativeStep) :
    Text.Stops test (ss.flatMap NativeStep.text ++ rest) := by
  cases ss with
  | nil => exact hrest
  | cons s ss =>
      obtain ⟨u, hu⟩ := s.exists_text_eq_cons
      rw [List.flatMap_cons, hu]
      exact Text.stops_cons.2 hdot

theorem readSteps_nativeSteps {rest : Text} (hrest : rest.Breaks) (ss : List NativeStep) :
    Token.readSteps (ss.flatMap NativeStep.text ++ rest) = (ss.flatMap NativeStep.text, rest) := by
  induction ss with
  | nil => exact readSteps_of_breaks hrest
  | cons s ss ih =>
      have hstops := stops_nativeSteps isNameChar (by decide)
        (stops_isNameChar_of_breaks hrest) ss
      rw [List.flatMap_cons, List.append_assoc,
        readSteps_of_readStep?_eq_some (s.readStep?_text hstops), ih]
      rfl

theorem isNativeSteps_nativeSteps (ss : List NativeStep) :
    Token.isNativeSteps (ss.flatMap NativeStep.text) = true := by
  induction ss with
  | nil => exact Token.isNativeSteps_of_readNativeStep?_eq_none rfl
  | cons s ss ih =>
      have hstops := stops_nativeSteps isNameChar (by decide) (Text.stops_nil _) ss
      rw [List.append_nil] at hstops
      rw [List.flatMap_cons,
        Token.isNativeSteps_of_readNativeStep?_eq_some (s.readNativeStep?_text hstops), ih]

namespace NativePath

variable (p : NativePath)

theorem exists_text_eq_cons : ∃ c cs, isNameChar c = true ∧ p.text = c :: cs := by
  obtain ⟨c, cs, hcs⟩ := List.exists_cons_of_ne_nil p.head.isName.1
  exact ⟨c, _, p.head.isName.2 c (by simp [hcs]), by rw [text, hcs, List.cons_append]⟩

theorem isNative_text : isNative p.text = true := by
  have hstops := stops_nativeSteps isNameChar (by decide) (Text.stops_nil _) p.steps
  rw [List.append_nil] at hstops
  rw [isNative, text, Token.readName?_append p.head.isName hstops]
  simp only [isNativeSteps_nativeSteps, Bool.or_true]

/-- A path is no pair. -/
theorem isPairShaped_text : isPairShaped p.text = false := by
  have hstops := stops_nativeSteps isNameChar (by decide) (Text.stops_nil _) p.steps
  have hequals := stops_nativeSteps (· == '=') (by decide) (Text.stops_nil _) p.steps
  rw [List.append_nil] at hstops hequals
  have hhead : (p.steps.flatMap NativeStep.text).head? ≠ some '=' :=
    fun h => absurd (hequals '=' h) (by simp)
  rw [isPairShaped, text, Token.pairKey?_name_append p.head.isName hstops hhead]
  rfl

/-- A native path before white space is one token, unless an equals sign comes next. -/
theorem tokenize_text_append {rest : Text} (hrest : rest.Breaks)
    (he : Text.Stops (· == '=') (Text.trimStart rest)) :
    tokenize (p.text ++ rest) = p.text :: tokenize rest := by
  have hstops := stops_nativeSteps isNameChar (by decide)
    (stops_isNameChar_of_breaks hrest) p.steps
  have hequals : Text.Stops (· == '=')
      (Text.trimStart (p.steps.flatMap NativeStep.text ++ rest)) := by
    cases hsteps : p.steps with
    | nil => exact he
    | cons s ss =>
        obtain ⟨u, hu⟩ := s.exists_text_eq_cons
        rw [List.flatMap_cons, hu]
        exact Text.stops_cons.2 rfl
  rw [text, List.append_assoc, tokenize_name_steps p.head.isName hstops hequals,
    readSteps_nativeSteps hrest]

theorem getLast?_text : ∀ c ∈ p.text.getLast?, isNameChar c = true ∨ c = ']' := by
  intro c hc
  rw [text] at hc
  obtain hnil | ⟨init, last, hlast⟩ := List.eq_nil_or_concat p.steps
  · rw [hnil, List.flatMap_nil, List.append_nil] at hc
    exact .inl (p.head.isName.2 c (List.mem_of_getLast? hc))
  · obtain ⟨u, hu⟩ := last.exists_text_eq_cons
    rw [hlast, List.concat_eq_append, List.flatMap_append, List.flatMap_singleton,
      ← List.append_assoc, Text.getLast?_append_of_ne_nil (by simp [hu])] at hc
    exact last.getLast?_text c hc

theorem mem_text : ∀ c ∈ p.text, c ≠ '{' ∧ c ≠ '}' := by
  intro c hc
  rw [text, List.mem_append, List.mem_flatMap] at hc
  obtain hc | ⟨s, -, hc⟩ := hc
  · exact p.head.isName.braceless c hc
  · exact s.mem_text c hc

end NativePath

namespace QuotedPair

variable (x : QuotedPair)

theorem readQuoteEnd?_append {q : Char} (hq : q ≠ '\\') {v : Text}
    (hv : ∀ c ∈ v, c ≠ q ∧ c ≠ '\\') (rest : Text) :
    Token.readQuoteEnd? q (v ++ q :: rest) = some (v ++ [q], rest) := by
  induction v with
  | nil => rw [List.nil_append, Token.readQuoteEnd?_cons hq, if_pos rfl, List.nil_append]
  | cons c v ih =>
      obtain ⟨hquote, hslash⟩ := hv c (by simp)
      rw [List.cons_append, Token.readQuoteEnd?_cons hslash, if_neg hquote,
        ih fun d hd => hv d (List.mem_cons_of_mem c hd)]
      rfl

theorem pairKey?_text : pairKey? x.text = some x.key.text :=
  Token.pairKey?_append x.key.isName _

/-- A pair with a quoted value is one token, whatever follows. -/
theorem tokenize_text_append (rest : Text) :
    tokenize (x.text ++ rest) = x.text :: tokenize rest := by
  have hvalue : ∀ c ∈ x.value, c ≠ '"' ∧ c ≠ '\\' := by
    intro c hc
    have hplain := x.plain c hc
    simp only [List.mem_cons, List.not_mem_nil, or_false, not_or] at hplain
    exact ⟨hplain.1, hplain.2.1⟩
  have hquoted : Token.readQuoted? ('"' :: (x.value ++ '"' :: rest)) =
      some ('"' :: (x.value ++ ['"']), rest) := by
    rw [Token.readQuoted?, readQuoteEnd?_append (by decide) hvalue]
    rfl
  have hsign : Text.trimStart ('=' :: '"' :: (x.value ++ '"' :: rest)) =
      '=' :: '"' :: (x.value ++ '"' :: rest) := Text.trimStart_eq_self (Text.stops_cons.2 rfl)
  have hquote : Text.trimStart ('"' :: (x.value ++ '"' :: rest)) =
      '"' :: (x.value ++ '"' :: rest) := Text.trimStart_eq_self (Text.stops_cons.2 rfl)
  have hshape : x.text ++ rest = x.key.text ++ '=' :: '"' :: (x.value ++ '"' :: rest) := by
    simp [text]
  have hpair : Token.readPair? (x.text ++ rest) =
      some (.pair x.key.text ('"' :: (x.value ++ ['"'])), rest) := by
    rw [hshape, Token.readPair?,
      Token.readName?_append x.key.isName (Text.stops_cons.2 (by decide))]
    simp only [hsign, hquote, Token.readValue?, hquoted, Option.some_or, Option.map_some]
  have hread : Token.read? (x.text ++ rest) =
      some (.pair x.key.text ('"' :: (x.value ++ ['"'])), rest) := by
    rw [Token.read?, hpair, Option.some_or]
  have hblank : Text.Stops isBlank (x.text ++ rest) := by
    obtain ⟨c, cs, hcs⟩ := List.exists_cons_of_ne_nil x.key.isName.1
    rw [hshape, hcs]
    exact Text.stops_cons.2 (x.key.isName.nonblank c (by simp [hcs]))
  rw [tokenize_of_read? hblank hread]
  rfl

theorem getLast?_text : x.text.getLast? = some '"' := by
  simp [text, List.getLast?_append, List.getLast?_cons]

theorem mem_text : ∀ c ∈ x.text, c ≠ '{' ∧ c ≠ '}' := by
  intro c hc
  simp only [text, List.mem_append, List.mem_cons, List.not_mem_nil, or_false] at hc
  obtain hc | rfl | rfl | hc | rfl := hc
  · exact x.key.isName.braceless c hc
  · decide
  · decide
  · have hplain := x.plain c hc
    simp only [List.mem_cons, List.not_mem_nil, or_false, not_or] at hplain
    exact hplain.2.2
  · decide

end QuotedPair

theorem spacedPairs_cons (x : QuotedPair) (xs : List QuotedPair) :
    spacedPairs (x :: xs) = ' ' :: (x.text ++ spacedPairs xs) := rfl

/-- Pairs, each after a space, are read one by one. -/
theorem tokenize_spacedPairs (pairs : List QuotedPair) :
    tokenize (spacedPairs pairs) = pairs.map QuotedPair.text := by
  induction pairs with
  | nil => exact tokenize_nil
  | cons x xs ih =>
      rw [spacedPairs_cons, tokenize_space_cons, x.tokenize_text_append, ih, List.map_cons]

theorem tokenize_joinSpaced_pairs (pairs : List QuotedPair) :
    tokenize (Text.joinSpaced (pairs.map QuotedPair.text)) = pairs.map QuotedPair.text := by
  have hread := tokenize_spacedPairs pairs
  cases pairs with
  | nil => exact tokenize_nil
  | cons x xs =>
      rw [spacedPairs_cons, tokenize_space_cons] at hread
      rw [List.map_cons, Text.joinSpaced_cons, List.flatMap_map]
      exact hread

namespace NativeTag

variable (helper : Name) (p : NativePath) (pairs : List QuotedPair)

theorem breaks_spacedPairs : (spacedPairs pairs).Breaks := by
  cases pairs with
  | nil => exact Text.stops_nil _
  | cons x xs => exact Text.stops_cons.2 rfl

/-- A name is no equals sign, with or without white space before it. -/
theorem stops_equals_of_isNameChar {c : Char} (hc : isNameChar c = true) (cs : Text) :
    Text.Stops (· == '=') (Text.trimStart (' ' :: c :: cs)) := by
  rw [Text.trimStart_space_cons (Text.stops_cons.2 (isBlank_eq_false_of_isNameChar hc)),
    Text.stops_cons, beq_eq_false_iff_ne]
  rintro rfl
  exact absurd hc (by decide)

theorem tokenize_callText :
    tokenize (callText helper p pairs) =
      helper.text :: p.text :: pairs.map QuotedPair.text := by
  have hpath : Text.Stops (· == '=') (Text.trimStart (' ' :: (p.text ++ spacedPairs pairs))) := by
    obtain ⟨c, cs, hc, hcs⟩ := p.exists_text_eq_cons
    rw [hcs]
    exact stops_equals_of_isNameChar hc _
  have hpairs : Text.Stops (· == '=') (Text.trimStart (spacedPairs pairs)) := by
    cases pairs with
    | nil => exact Text.stops_nil _
    | cons x xs =>
        obtain ⟨c, cs, hcs⟩ := List.exists_cons_of_ne_nil x.key.isName.1
        rw [spacedPairs_cons, QuotedPair.text, hcs]
        exact stops_equals_of_isNameChar (x.key.isName.2 c (by simp [hcs])) _
  rw [callText, tokenize_name_append helper.isName (Text.stops_cons.2 rfl) hpath,
    tokenize_space_cons, p.tokenize_text_append (breaks_spacedPairs pairs) hpairs,
    tokenize_spacedPairs]

theorem leads_callText : Markers.Leads (callText helper p pairs) := by
  obtain ⟨c, r, heq, h⟩ := Markers.leads_of_isName helper.isName
  exact ⟨c, _, by rw [callText, heq]; rfl, h⟩

/-- A call ends neither with white space nor with a bar or a tilde. -/
theorem getLast?_callText :
    ∀ c ∈ (callText helper p pairs).getLast?, isBlank c = false ∧ c ≠ '|' ∧ c ≠ '~' := by
  intro c hc
  have hend : isNameChar c = true ∨ c ∈ [']', '"'] := by
    obtain ⟨d, ds, -, hds⟩ := p.exists_text_eq_cons
    obtain rfl | ⟨xs, x, rfl⟩ := List.eq_nil_or_concat pairs
    · have hshape : callText helper p [] = (helper.text ++ [' ']) ++ p.text := by
        simp [callText, spacedPairs]
      rw [hshape, Text.getLast?_append_of_ne_nil (by simp [hds])] at hc
      obtain hname | rfl := p.getLast?_text c hc
      · exact Or.inl hname
      · exact Or.inr (by simp)
    · have hshape : callText helper p (xs.concat x) =
          (helper.text ++ ' ' :: (p.text ++ (spacedPairs xs ++ [' ']))) ++ x.text := by
        simp [callText, spacedPairs]
      have hne : x.text ≠ [] := List.append_ne_nil_of_left_ne_nil x.key.isName.1 _
      rw [hshape, Text.getLast?_append_of_ne_nil hne, x.getLast?_text, Option.mem_def,
        Option.some.injEq] at hc
      exact Or.inr (by simp [← hc])
  obtain hname | hsign := hend
  · obtain ⟨hblank, htilde, -, -, hbar, -⟩ := IsName.excludes hname
    exact ⟨hblank, hbar, htilde⟩
  · simp only [List.mem_cons, List.not_mem_nil, or_false] at hsign
    obtain rfl | rfl := hsign <;> decide

end NativeTag

/-- A native path is not looked up if no pair beside it shapes the result. -/
theorem pathUse_ne_lookUp {o : Options} {p : Text} {arguments : Option Text}
    (hp : isNative p = true)
    (hkeys : ∀ t ∈ tokenize (arguments.getD []), ∀ k ∈ pairKey? t, k ∉ o.shapingKeys)
    (call : LookUp) : pathUse o p arguments ≠ .lookUp call := by
  intro h
  obtain ⟨hgroup, hrelative, hcontext, hreserved, hliteral, -⟩ := pathUse_eq_lookUp h
  rw [pathUse_of_eligible ⟨hgroup, hrelative, hcontext, hreserved, hliteral⟩ rfl,
    if_pos ⟨hp, hkeys⟩] at h
  exact absurd h (by simp)

namespace NativeTag

variable (t : NativeTag)

theorem leads_text : Markers.Leads t.text := by
  cases t with
  | path p =>
      obtain ⟨c, r, heq, h⟩ := Markers.leads_of_isName p.head.isName
      exact ⟨c, _, by rw [text, NativePath.text, heq]; rfl, h⟩
  | call form helper p pairs => exact form.leads_write (leads_callText helper p pairs)

theorem mem_text : ∀ c ∈ t.text, c ≠ '{' ∧ c ≠ '}' := by
  cases t with
  | path p => exact p.mem_text
  | call form helper p pairs =>
      apply form.braceless_write
      intro c hc
      simp only [callText, spacedPairs, List.mem_append, List.mem_cons, List.mem_flatMap] at hc
      obtain hc | rfl | hc | ⟨x, -, rfl | hc⟩ := hc
      · exact helper.isName.braceless c hc
      · decide
      · exact p.mem_text c hc
      · decide
      · exact x.mem_text c hc

theorem strip_text : Text.trim t.text = t.text ∧
    Markers.strip t.text = (t.text, ⟨false, false, false⟩) := by
  have hleads := t.leads_text
  cases t with
  | path p =>
      apply Form.expression.strip_write hleads
      intro c hc
      obtain hname | rfl := p.getLast?_text c hc
      · exact ⟨(IsName.excludes hname).1, (IsName.excludes hname).2.1⟩
      · decide
  | call form helper p pairs =>
      apply form.strip_write (leads_callText helper p pairs)
      intro c hc
      obtain ⟨hblank, -, htilde⟩ := getLast?_callText helper p pairs c hc
      exact ⟨hblank, htilde⟩

theorem expressionOf_path {o : Options} {p : NativePath} (h : p.text ∉ o.widgetHelpers) :
    expressionOf o p.text = .path p.text := by
  have htokens := p.tokenize_text_append (Text.stops_nil _) (Text.stops_nil _)
  rw [List.append_nil, tokenize_nil] at htokens
  have hplain : opensBlock p.text = false := opensBlock_of_isName p.head.isName
  rw [expressionOf_of_opensBlock_eq_false hplain, htokens]
  simp [Expression.ofTokens, h]

theorem expressionOf_call (o : Options) (form : Form) (helper : Name) (p : NativePath)
    (pairs : List QuotedPair) :
    ∃ arguments, expressionOf o (form.write (callText helper p pairs)) =
        .onPath helper.text p.text arguments ∧
      tokenize (arguments.getD []) = pairs.map QuotedPair.text := by
  obtain ⟨arguments, hread, harguments⟩ := Expression.ofTokens_cons_cons o.widgetHelpers
    (pairs.map QuotedPair.text) helper.text p.isPairShaped_text
  have hplain : opensBlock (callText helper p pairs) = false := opensBlock_of_isName helper.isName
  refine ⟨arguments, ?_, ?_⟩
  · rw [form.expressionOf_write o hplain, tokenize_callText, hread]
    intro c hc
    obtain ⟨hblank, hbar, -⟩ := getLast?_callText helper p pairs c hc
    exact ⟨hblank, hbar⟩
  · rw [harguments, tokenize_joinSpaced_pairs]

/-- A tag with native syntax is not rewritten. -/
theorem ofBody_text {o : Options} (h : t.Unshaped o) (new : Text) :
    Decision.ofBody o t.text ≠ .rewrite new := by
  intro hnew
  obtain ⟨hcontrol, hshape⟩ := rewritten_of_ofBody_eq_rewrite hnew
  cases t with
  | path p =>
      have hread := expressionOf_path h
      rw [(path p).strip_text.2] at hshape
      generalize htext : (path p).text = text at hshape
      change p.text = text at htext
      rw [htext] at hread
      cases hshape with
      | path hplain hread' huse =>
          simp only [hread, Expression.path.injEq] at hread'
          rw [← hread', ← htext] at huse
          exact pathUse_ne_lookUp p.isNative_text (by simp [tokenize_nil]) _ huse
      | onContext hplain hread' => simp [hread] at hread'
      | onPath hplain hread' huse => simp [hread] at hread'
      | block hsign hread' huse => simp [hread] at hread'
  | call form helper p pairs =>
      obtain ⟨arguments, hread, htokens⟩ := expressionOf_call o form helper p pairs
      have hkeys : ∀ t ∈ tokenize (arguments.getD []), ∀ k ∈ pairKey? t, k ∉ o.shapingKeys := by
        rw [htokens]
        intro t ht k hk
        obtain ⟨x, hx, rfl⟩ := List.mem_map.1 ht
        rw [x.pairKey?_text, Option.mem_some] at hk
        rw [← hk]
        exact h x hx
      have hstrip := (call form helper p pairs).strip_text.2
      rw [ofBody_of_onPath hcontrol (by rw [hstrip]; exact hread)] at hnew
      cases huse : pathUse o p.text arguments with
      | keep reason => simp [huse] at hnew
      | lookUp found => exact pathUse_ne_lookUp p.isNative_text hkeys found huse

end NativeTag

/-- A template with a single tag of native syntax stays byte for byte. -/
theorem preprocess_nativeTag {o : Options} (t : NativeTag) (h : t.Unshaped o) :
    tags (braced t.text) = [⟨t.text, .start⟩] ∧
      (∀ new, Tag.decision o ⟨t.text, .start⟩ ≠ .rewrite new) ∧
      preprocess o (braced t.text) = braced t.text := by
  have hopen : '{' ∉ t.text := fun hmem => (t.mem_text _ hmem).1 rfl
  have hclose : '}' ∉ t.text := fun hmem => (t.mem_text _ hmem).2 rfl
  have hcomment : commentInner? (t.text ++ ['}', '}']) = none :=
    Markers.commentInner?_lead_append ⟨false, false, false⟩ t.leads_text ['}', '}']
  have htrim := t.strip_text.1
  refine ⟨tags_braced hopen hclose hcomment, ?_, ?_⟩
  · rw [Tag.decision, Tag.body, htrim]
    exact t.ofBody_text h
  · rw [preprocess_braced hopen hclose hcomment]
    apply tagOutput_eq_braced
    rw [htrim]
    cases hbody : Decision.ofBody o t.text with
    | control => rfl
    | leave reason => rfl
    | invalid reason => rfl
    | rewrite new => exact absurd hbody (t.ofBody_text h new)

/-- The tag `#list rows.['a|b'].[0] note="x as |y|" as |row|`. -/
def nativeSample : NativeTag :=
  .call (.block false (some ⟨"row".toList, by decide, by decide⟩))
    ⟨"list".toList, by decide +kernel⟩
    ⟨⟨"rows".toList, by decide +kernel⟩,
      [.bracket (.literal .single "a|b".toList (Text.forall_mem_of_all (by decide))
          (Text.forall_mem_of_all (by decide))),
        .bracket (.index ['0'] (List.cons_ne_nil _ _) (Text.forall_mem_of_all (by decide)))]⟩
    [⟨⟨"note".toList, by decide +kernel⟩, "x as |y|".toList, Text.forall_mem_of_all (by decide)⟩]

/-- Bars in a key and in a value are not taken for those of the clause. -/
theorem preprocess_nativeSample :
    nativeSample.text = "#list rows.['a|b'].[0] note=\"x as |y|\" as |row|".toList ∧
      nativeSample.Unshaped Options.default ∧
      preprocess Options.default (braced nativeSample.text) = braced nativeSample.text := by
  have hunshaped : nativeSample.Unshaped Options.default := by
    change ∀ x ∈ _, _
    intro x hx
    obtain rfl := List.mem_singleton.1 hx
    decide +kernel
  exact ⟨by decide +kernel, hunshaped, (preprocess_nativeTag nativeSample hunshaped).2.2⟩

end MustachePath
