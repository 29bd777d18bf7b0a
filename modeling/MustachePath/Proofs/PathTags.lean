import MustachePath.Proofs.PathReading
import MustachePath.Proofs.Replacements

/-!
# Tags with a written path

A written path is a single token of a tag, however many brackets it has (`tokenize_text`). The
template language understands it by itself unless a suffix needs a look-up (`isNative_text`), and
only then the tag is rewritten, to a call of the accessor with a literal of the path.
-/

namespace MustachePath

/-- Whether brackets hold a comparison. -/
def Inside.isComparison : Inside → Bool
  | comparison _ _ => true
  | _ => false

/-- Whether a suffix is beyond the template language: brackets without a dot, or a comparison. -/
def Suffix.needsLookUp : Suffix → Bool
  | field _ => false
  | bracket dotted x => !dotted || x.isComparison

namespace Token

theorem readName?_bracket (cs : Text) : readName? ('[' :: cs) = none :=
  readName?_eq_none_iff.2 (Text.stops_cons.2 (by decide))

/-- Each suffix is read as one further step of a path. -/
theorem readStep?_suffix (s : Suffix) {rest : Text} (hr : Text.Stops isNameChar rest) :
    readStep? (s.text ++ rest) = some (s.text, rest) := by
  cases s with
  | field n =>
      have hname := readName?_append n.isName hr
      rw [Suffix.text, List.cons_append, readStep?, hname]
      rfl
  | bracket dotted x =>
      have hclose : ']' ∉ x.text := fun h => x.unbracketed _ h (by simp)
      have hopen : '[' ∉ x.text := fun h => x.unbracketed _ h (by simp)
      have hbracket := readBracket?_append hclose hopen rest
      rw [List.cons_append] at hbracket
      cases dotted with
      | true =>
          rw [Suffix.text_dotted, readStep?, readName?_bracket, Option.none_or, hbracket]
          rfl
      | false =>
          rw [Suffix.text_undotted, readStep?.eq_def]
          exact hbracket

theorem readSteps_suffixes (ss : List Suffix) :
    readSteps (ss.flatMap Suffix.text) = (ss.flatMap Suffix.text, []) := by
  induction ss with
  | nil => exact readSteps_of_readStep?_eq_none rfl
  | cons s ss ih =>
      have hstops : Text.Stops isNameChar (ss.flatMap Suffix.text) :=
        stops_suffixes (by decide) (by decide) ss
      rw [List.flatMap_cons, readSteps_of_readStep?_eq_some (readStep?_suffix s hstops), ih]
      rfl

end Token

namespace WrittenPath

variable (p : WrittenPath)

theorem stops_suffixes_isNameChar :
    Text.Stops isNameChar (p.suffixes.flatMap Suffix.text) :=
  stops_suffixes (by decide) (by decide) p.suffixes

/-- A written path is a single token. -/
theorem tokenize_text : tokenize p.text = [p.text] := by
  have hequals : Text.Stops (· == '=') (Text.trimStart (p.suffixes.flatMap Suffix.text)) := by
    rw [Text.trimStart_eq_self (stops_suffixes (by decide) (by decide) p.suffixes)]
    exact stops_suffixes rfl rfl p.suffixes
  rw [text, tokenize_name_steps p.head.isName p.stops_suffixes_isNameChar hequals,
    Token.readSteps_suffixes, tokenize_nil]

end WrittenPath

theorem Comparison.exists_sign_eq (s : Comparison) :
    ∃ c, s.sign = [c, '='] ∧ (c = '=' ∨ c = '!') := by
  cases s with
  | equal => exact ⟨'=', rfl, .inl rfl⟩
  | notEqual => exact ⟨'!', rfl, .inr rfl⟩

theorem Quote.isPlainKeyChar_char (q : Quote) : isPlainKeyChar q.char = true := by
  cases q with
  | double => rfl
  | single => rfl

theorem KeyText.plain_and_ne (k : KeyText) (q : Quote) :
    ∀ c ∈ k.text, c ≠ q.char ∧ isPlainKeyChar c = true := by
  intro c hc
  refine ⟨?_, k.plain c hc⟩
  rintro rfl
  exact k.inert.quote_notMem q hc

namespace Token

theorem readKeyEnd?_cons {q c : Char} (hq : c ≠ q) (hplain : isPlainKeyChar c = true) (cs : Text) :
    readKeyEnd? q (c :: cs) = (readKeyEnd? q cs).map (before [c]) := by
  rw [readKeyEnd?.eq_def]
  simp [hq, hplain]

/-- A quoted key ends at its quote and the closing bracket. -/
theorem readKeyEnd?_append (q : Quote) {k : Text}
    (hk : ∀ c ∈ k, c ≠ q.char ∧ isPlainKeyChar c = true) (rest : Text) :
    readKeyEnd? q.char (k ++ q.char :: ']' :: rest) = some (k ++ [q.char, ']'], rest) := by
  induction k with
  | nil => simp [readKeyEnd?]
  | cons c k ih =>
      obtain ⟨hq, hplain⟩ := hk c (by simp)
      rw [List.cons_append, readKeyEnd?_cons hq hplain,
        ih fun d hd => hk d (List.mem_cons_of_mem c hd)]
      rfl

/-- A character of a comparison before the quote is no part of a key. -/
theorem readKeyEnd?_eq_none (q : Quote) {k : Text}
    (hk : ∀ c ∈ k, c ≠ q.char ∧ isPlainKeyChar c = true) {c : Char} (hq : c ≠ q.char)
    (hc : isPlainKeyChar c = false) (rest : Text) : readKeyEnd? q.char (k ++ c :: rest) = none := by
  induction k with
  | nil => simp [readKeyEnd?, hq, hc]
  | cons d k ih =>
      obtain ⟨hdq, hplain⟩ := hk d (by simp)
      rw [List.cons_append, readKeyEnd?_cons hdq hplain,
        ih fun e he => hk e (List.mem_cons_of_mem d he)]
      rfl

theorem readNativeBracket?_quote (q : Quote) (cs : Text) :
    readNativeBracket? ('[' :: q.char :: cs) =
      (readKeyEnd? q.char cs).map (before ['[', q.char]) := by
  cases q with
  | double => rfl
  | single => rfl

theorem readNativeBracket?_of_stops {cs : Text} (h : Text.Stops isQuote cs) :
    readNativeBracket? ('[' :: cs) = (readDigitsEnd? cs).map (before ['[']) := by
  cases cs with
  | nil => rfl
  | cons c cs =>
      have hquote : c ≠ '"' ∧ c ≠ '\'' := by
        simpa [isQuote] using Text.stops_cons.1 h
      rw [readNativeBracket?]
      · exact fun cs' heq => hquote.1 (List.cons.inj heq).1
      · exact fun cs' heq => hquote.2 (List.cons.inj heq).1

/-- A character that is neither a digit nor a closing bracket ends the digits too early. -/
theorem readDigitsEnd?_eq_none {f : Text} (hf : ']' ∉ f) {c : Char}
    (hc : isDecimalDigit c = false) (hclose : c ≠ ']') (rest : Text) :
    readDigitsEnd? (f ++ c :: rest) = none := by
  unfold readDigitsEnd?
  split
  · rename_i digits r hread
    obtain ⟨hsplit, -⟩ := readWhile?_eq_some hread
    have hdigits := (all_of_readWhile?_eq_some hread).1
    obtain ⟨a, ha, hr⟩ | ⟨a, ha, hr⟩ := List.append_eq_append_iff.1 hsplit
    · cases a with
      | nil =>
          rw [List.nil_append, List.cons.injEq] at hr
          exact absurd hr.1 hclose
      | cons d a =>
          obtain ⟨rfl, -⟩ := List.cons.inj hr
          rw [hdigits c (by simp [ha])] at hc
          exact absurd hc (by simp)
    · cases a with
      | nil =>
          rw [List.nil_append, List.cons.injEq] at hr
          exact absurd hr.1.symm hclose
      | cons d a =>
          obtain ⟨rfl, -⟩ := List.cons.inj hr
          exact absurd (by simp [ha]) hf
  · rfl

theorem readNativeBracket?_index (n : Nat) (rest : Text) :
    readNativeBracket? ('[' :: (Text.ofNat n ++ ']' :: rest)) =
      some ('[' :: (Text.ofNat n ++ [']']), rest) := by
  have hne : Text.ofNat n ≠ [] := Nat.toDigits_ne_nil
  obtain ⟨d, ds, hds⟩ := List.exists_cons_of_ne_nil hne
  have hstops : Text.Stops isQuote (Text.ofNat n ++ ']' :: rest) := by
    rw [hds, List.cons_append]
    exact Text.stops_cons.2 (signless_ofNat n d (by simp [hds])).1
  have hread : readWhile? isDecimalDigit (Text.ofNat n ++ ']' :: rest) =
      some (Text.ofNat n, ']' :: rest) :=
    readWhile?_append hne
      (fun c hc => isDecimalDigit_of_isDigit (isDigit_ofNat hc)) (Text.stops_cons.2 (by decide))
  rw [readNativeBracket?_of_stops hstops, readDigitsEnd?, hread]
  rfl

theorem readNativeBracket?_key (q : Quote) (k : KeyText) (rest : Text) :
    readNativeBracket? ('[' :: (q.enclose k.text ++ ']' :: rest)) =
      some ('[' :: (q.enclose k.text ++ [']']), rest) := by
  rw [Quote.enclose, List.cons_append, List.append_assoc, List.cons_append, List.nil_append,
    readNativeBracket?_quote, readKeyEnd?_append q (k.plain_and_ne q)]
  simp [before]

theorem readNativeBracket?_comparison (outer : Option Quote) (w : WrittenComparison) (rest : Text) :
    readNativeBracket? ('[' :: ((Inside.comparison outer w).text ++ ']' :: rest)) = none := by
  obtain ⟨c, hsign, hsigns⟩ := w.sign.exists_sign_eq
  have hplain : isPlainKeyChar c = false := by
    obtain rfl | rfl := hsigns
    · rfl
    · rfl
  have hdigit : isDecimalDigit c = false := by
    obtain rfl | rfl := hsigns
    · decide
    · decide
  have hclose : c ≠ ']' := by
    rintro rfl
    exact absurd hplain (by decide)
  have hfield : ']' ∉ w.field.text := fun h => (w.field.inert.excludes h).2.2.2.1 rfl
  cases outer with
  | none =>
      have hstops : Text.Stops isQuote (w.text ++ ']' :: rest) := by
        rw [WrittenComparison.text, List.append_assoc]
        exact w.stops_quote _
      rw [Inside.text, readNativeBracket?_of_stops hstops, WrittenComparison.text, hsign,
        List.append_assoc, List.cons_append, List.cons_append,
        readDigitsEnd?_eq_none hfield hdigit hclose]
      rfl
  | some q =>
      have hquote : c ≠ q.char := by
        rintro rfl
        rw [q.isPlainKeyChar_char] at hplain
        exact absurd hplain (by simp)
      rw [Inside.text, Quote.enclose, List.cons_append, readNativeBracket?_quote,
        WrittenComparison.text, hsign, List.append_assoc, List.append_assoc, List.cons_append,
        List.cons_append, readKeyEnd?_eq_none q (w.field.plain_and_ne q) hquote hplain]
      rfl

/-- A step of a native path is a suffix that needs no look-up. -/
theorem readNativeStep?_suffix (s : Suffix) {rest : Text} (hr : Text.Stops isNameChar rest) :
    readNativeStep? (s.text ++ rest) = if s.needsLookUp then none else some (s.text, rest) := by
  cases s with
  | field n =>
      have hname := readName?_append n.isName hr
      rw [Suffix.text, List.cons_append, readNativeStep?, hname]
      rfl
  | bracket dotted x =>
      cases dotted with
      | false =>
          rw [Suffix.text_undotted]
          rfl
      | true =>
          rw [Suffix.text_dotted, readNativeStep?, readName?_bracket, Option.none_or]
          cases x with
          | index n h =>
              rw [Inside.text, readNativeBracket?_index]
              rfl
          | key q k =>
              rw [Inside.text, readNativeBracket?_key]
              rfl
          | comparison outer w =>
              rw [readNativeBracket?_comparison]
              rfl

theorem isNativeSteps_of_readNativeStep?_eq_some {cs a r : Text}
    (h : readNativeStep? cs = some (a, r)) : isNativeSteps cs = isNativeSteps r := by
  rw [isNativeSteps]
  split
  · rename_i heq
    rw [h, Option.some.injEq, Prod.mk.injEq] at heq
    rw [heq.2]
  · rename_i heq
    rw [h] at heq
    exact absurd heq (by simp)

theorem isNativeSteps_of_readNativeStep?_eq_none {cs : Text} (h : readNativeStep? cs = none) :
    isNativeSteps cs = cs.isEmpty := by
  rw [isNativeSteps]
  split
  · rename_i heq
    rw [h] at heq
    exact absurd heq (by simp)
  · rfl

theorem isNativeSteps_suffixes (ss : List Suffix) :
    isNativeSteps (ss.flatMap Suffix.text) = !ss.any Suffix.needsLookUp := by
  induction ss with
  | nil => exact isNativeSteps_of_readNativeStep?_eq_none rfl
  | cons s ss ih =>
      have hstops : Text.Stops isNameChar (ss.flatMap Suffix.text) :=
        stops_suffixes (by decide) (by decide) ss
      have hstep := readNativeStep?_suffix s hstops
      rw [List.flatMap_cons, List.any_cons]
      cases hneeds : s.needsLookUp with
      | false =>
          rw [hneeds, if_neg (by simp)] at hstep
          rw [isNativeSteps_of_readNativeStep?_eq_some hstep, ih, Bool.false_or]
      | true =>
          rw [hneeds, if_pos rfl] at hstep
          rw [isNativeSteps_of_readNativeStep?_eq_none hstep]
          simp [s.text_ne_nil]

end Token

namespace WrittenPath

variable (p : WrittenPath)

/-- Whether the path is beyond the template language. -/
def needsLookUp : Bool := p.suffixes.any Suffix.needsLookUp

theorem isContextPath_text : isContextPath p.text = false := by
  have hword : p.text ≠ contextWord := by
    intro h
    rw [text] at h
    cases hss : p.suffixes with
    | nil =>
        rw [hss, List.flatMap_nil, List.append_nil] at h
        exact p.head_ne h
    | cons s ss =>
        have hstops := p.stops_suffixes_isNameChar
        obtain ⟨c, cs, hcs⟩ := List.exists_cons_of_ne_nil (s.text_ne_nil)
        rw [hss, List.flatMap_cons, hcs, List.cons_append] at h hstops
        have hc : isNameChar c = true := isName_contextWord.2 c (by rw [← h]; simp)
        rw [Text.stops_cons, hc] at hstops
        exact absurd hstops (by simp)
  have hdot : p.text ≠ ['.'] := by
    intro h
    exact absurd (p.head.isName.of_append_eq_cons h) (by decide)
  simp [isContextPath, hword, hdot]

/-- The template language understands a path unless a suffix needs a look-up. -/
theorem isNative_text : isNative p.text = !p.needsLookUp := by
  have hname := Token.readName?_append p.head.isName p.stops_suffixes_isNameChar
  rw [isNative, p.isContextPath_text, Bool.false_or, text, hname]
  exact Token.isNativeSteps_suffixes p.suffixes

variable {o : Options}

theorem pathUse_text (hr : p.text ∉ o.reservedWords) :
    pathUse o p.text none =
      if p.needsLookUp then .lookUp ⟨p.text, [], []⟩ else .keep .nativePath := by
  obtain ⟨c, cs, hc, hcs⟩ := p.exists_text_eq_cons
  have hquote : Text.isLiteral p.text = false := by
    apply isLiteral_eq_false
    rw [hcs, Text.stops_cons]
    refine Bool.eq_false_iff.2 fun h => ?_
    simp only [isQuote, Bool.or_eq_true, decide_eq_true_eq] at h
    obtain rfl | rfl := h
    · exact absurd hc (by decide)
    · exact absurd hc (by decide)
  have hgroup : isGroup p.text = false := by
    have hparen : c ≠ '(' := by
      rintro rfl
      exact absurd hc (by decide)
    simp [isGroup, hcs, hparen]
  have hrelative : isRelative p.text = false := by
    have hdot : '.' ≠ c := by
      rintro rfl
      exact absurd hc (by decide)
    simp [isRelative, hcs, Text.startsWith, Text.afterPrefix?, hdot]
  have hreserved : o.reservedWords.contains p.text = false := by
    simpa using hr
  simp only [pathUse, hgroup, hrelative, p.isContextPath_text, hreserved, hquote, p.isNative_text,
    Option.getD_none, tokenize_nil, List.filterMap_nil, List.any_nil, List.filter_nil]
  cases p.needsLookUp with
  | true => rfl
  | false => rfl

theorem strip_text : Markers.strip p.text = (p.text, ⟨false, false, false⟩) := by
  have hunmarked : Markers.Unmarked p.text := by
    obtain ⟨c, cs, hc, hcs⟩ := p.exists_text_eq_cons
    obtain ⟨hblank, htilde, -⟩ := IsName.excludes hc
    have hand : c ≠ '&' := by
      rintro rfl
      exact absurd hc (by decide)
    rw [hcs, Markers.Unmarked, Text.stops_cons]
    simp [hblank, htilde, hand]
  exact (Markers.strip_eq_self p.text_ne_nil hunmarked p.isBlank_getLast?).2

/-- Only a path without suffixes can be a control tag. -/
theorem isControl_text (h : p.suffixes ≠ []) : isControl p.text = false := by
  refine Bool.eq_false_iff.2 fun hcontrol => ?_
  obtain ⟨-, hbreaks⟩ :=
    (isControl_name_append p.head.isName p.stops_suffixes_isNameChar).1 hcontrol
  obtain ⟨s, ss, hss⟩ := List.exists_cons_of_ne_nil h
  have hstops : Text.Stops isBlank (p.suffixes.flatMap Suffix.text) :=
    stops_suffixes (by decide) (by decide) p.suffixes
  obtain ⟨c, cs, hcs⟩ := List.exists_cons_of_ne_nil s.text_ne_nil
  rw [hss, List.flatMap_cons, hcs, List.cons_append] at hbreaks hstops
  have hblank := Text.stops_cons.1 hbreaks
  rw [Text.stops_cons.1 hstops] at hblank
  exact absurd hblank (by simp)

theorem ofExpression_text (hw : p.text ∉ o.widgetHelpers) (hr : p.text ∉ o.reservedWords)
    (m : Markers) :
    Decision.ofExpression o m p.text =
      if p.needsLookUp then
        .rewrite (m.wrap [o.accessor, contextWord, (LookUp.mk p.text [] []).literal])
      else .leave .nativePath := by
  have hread : Expression.ofTokens o.widgetHelpers [p.text] = .path p.text := by
    simp [Expression.ofTokens, hw]
  simp only [Decision.ofExpression, p.tokenize_text, hread, p.pathUse_text hr]
  cases p.needsLookUp with
  | true => rfl
  | false => rfl

/-- A path that needs a look-up becomes a call of the accessor. -/
theorem ofBody_text (hw : p.text ∉ o.widgetHelpers) (hr : p.text ∉ o.reservedWords)
    (h : p.needsLookUp = true) :
    Decision.ofBody o p.text =
      .rewrite (Markers.wrap ⟨false, false, false⟩
        [o.accessor, contextWord, (LookUp.mk p.text [] []).literal]) := by
  have hsuffixes : p.suffixes ≠ [] := by
    intro hnil
    rw [needsLookUp, hnil] at h
    exact absurd h (by simp)
  have hcontrol : isControl (Markers.strip p.text).1 = false := by
    rw [p.strip_text]
    exact p.isControl_text hsuffixes
  have hplain : opensBlock (Markers.strip p.text).1 = false := by
    rw [p.strip_text]
    exact opensBlock_of_isName p.head.isName
  rw [ofBody_eq_ofExpression hcontrol hplain, p.strip_text, p.ofExpression_text hw hr, if_pos h]

theorem replacement_ofBody_text (hw : p.text ∉ o.widgetHelpers) (hr : p.text ∉ o.reservedWords)
    (h : p.needsLookUp = false) : (Decision.ofBody o p.text).replacement = none := by
  have hplain : opensBlock (Markers.strip p.text).1 = false := by
    rw [p.strip_text]
    exact opensBlock_of_isName p.head.isName
  cases hcontrol : isControl (Markers.strip p.text).1 with
  | true => rw [Decision.ofBody, if_pos hcontrol, Decision.replacement]; simp
  | false =>
      rw [ofBody_eq_ofExpression hcontrol hplain, p.strip_text, p.ofExpression_text hw hr, h]
      rfl

/-- A path has no braces and backslashes. -/
theorem notMem_text : ∀ c ∈ p.text, c ∉ ['{', '}', '\\'] := by
  have hname : ∀ (n : Name), ∀ c ∈ n.text, c ∉ ['{', '}', '\\'] := by
    intro n c hc hmem
    have hn := n.isName.2 c hc
    simp only [List.mem_cons, List.not_mem_nil, or_false] at hmem
    obtain rfl | rfl | rfl := hmem <;> exact absurd hn (by decide)
  intro c hc
  rw [text, List.mem_append, List.mem_flatMap] at hc
  obtain hc | ⟨s, -, hc⟩ := hc
  · exact hname p.head c hc
  · cases s with
    | field n =>
        obtain rfl | hc := List.mem_cons.1 hc
        · decide
        · exact hname n c hc
    | bracket dotted x =>
        have hmem : c = '.' ∨ c = '[' ∨ c ∈ x.text ∨ c = ']' := by
          cases dotted with
          | true => simpa [Suffix.text] using hc
          | false => exact Or.inr (by simpa [Suffix.text] using hc)
        obtain rfl | rfl | hc | rfl := hmem
        · decide
        · decide
        · intro hsign
          exact x.unbracketed c hc (List.mem_cons_of_mem _ (List.mem_cons_of_mem _ hsign))
        · decide

theorem commentInner?_text : commentInner? (p.text ++ ['}', '}']) = none := by
  have hcomment := Markers.commentInner?_lead_append ⟨false, false, false⟩
    (Markers.leads_of_isName p.head.isName) (p.suffixes.flatMap Suffix.text ++ ['}', '}'])
  rw [text, List.append_assoc]
  exact hcomment

end WrittenPath

/-- A template with a written path for its only tag. The tag is rewritten exactly if the path needs
a look-up, and then the literal that the accessor receives stands for the path; and the accessor
reads the path as the steps that it was written with. -/
theorem preprocess_writtenPath {o : Options} (p : WrittenPath) (ho : o.isValid = true)
    (hw : p.text ∉ o.widgetHelpers) (hr : p.text ∉ o.reservedWords) :
    tags (braced p.text) = [⟨p.text, .start⟩] ∧
      ((∃ new, Tag.decision o ⟨p.text, .start⟩ = .rewrite new) ↔ p.needsLookUp = true) ∧
      (p.needsLookUp = true → ∃ l : Text,
        preprocess o (braced p.text) =
            braced (o.accessor ++ ' ' :: (contextWord ++ ' ' :: '"' :: (l ++ ['"']))) ∧
          Text.literalValue ('"' :: (l ++ ['"'])) = p.text) ∧
      (p.needsLookUp = false → preprocess o (braced p.text) = braced p.text) ∧
      Path.read p.text = .ok p.steps := by
  have hopen : '{' ∉ p.text := fun h => p.notMem_text _ h (by simp)
  have hclose : '}' ∉ p.text := fun h => p.notMem_text _ h (by simp)
  have hslash : '\\' ∉ p.text := fun h => p.notMem_text _ h (by simp)
  have hbody : (⟨p.text, .start⟩ : Tag).body = p.text := p.trim_text
  refine ⟨tags_braced hopen hclose p.commentInner?_text, ?_, fun h => ?_, fun h => ?_, p.read_text⟩
  · rw [Tag.decision, hbody]
    constructor
    · rintro ⟨new, hnew⟩
      refine (Bool.eq_false_or_eq_true p.needsLookUp).resolve_right fun h => ?_
      have hnone := p.replacement_ofBody_text hw hr h
      rw [hnew] at hnone
      exact absurd hnone (by simp [Decision.replacement])
    · intro h
      exact ⟨_, p.ofBody_text hw hr h⟩
  · refine ⟨protectQuotes p.text, ?_, ?_⟩
    · have haccessor := (isName_accessor ho).1
      rw [preprocess_braced hopen hclose p.commentInner?_text, tagOutput, p.trim_text,
        p.ofBody_text hw hr h, Markers.wrap_eq_braced _ haccessor isName_contextWord.1]
      simp [Decision.output, Markers.lead, Markers.trail, Text.spaced, LookUp.literal]
    · have hvalue : Text.literalValue (LookUp.mk p.text [] []).literal = p.text :=
        literalValue_literal hslash
      exact hvalue
  · rw [preprocess_braced hopen hclose p.commentInner?_text]
    apply tagOutput_eq_braced
    rw [p.trim_text]
    exact p.replacement_ofBody_text hw hr h

/-- The path `users[name=="Ann Lee"].['e-mail'].[0]`. -/
def samplePath : WrittenPath where
  head := ⟨"users".toList, by decide +kernel⟩
  head_ne := by decide
  suffixes :=
    [.bracket false (.comparison none
      ⟨⟨"name".toList, by decide, by decide, List.all_eq_true.1 (by decide)⟩, by decide, .equal,
        .double, "Ann Lee".toList, by decide⟩),
      .bracket true (.key .single
        ⟨"e-mail".toList, by decide, by decide, List.all_eq_true.1 (by decide)⟩),
      .bracket true (.index 0 (by decide))]

/-- A comparison with double quotes, a quoted key and an index, under the usual options. -/
theorem preprocess_samplePath :
    samplePath.text = "users[name==\"Ann Lee\"].['e-mail'].[0]".toList ∧
      samplePath.text ∉ Options.default.widgetHelpers ∧
      samplePath.text ∉ Options.default.reservedWords ∧
      samplePath.needsLookUp = true ∧
      (∃ new, Tag.decision Options.default ⟨samplePath.text, .start⟩ = .rewrite new) ∧
      Path.read samplePath.text = .ok
        [.key "users".toList, .predicate ⟨"name".toList, .equal, "Ann Lee".toList⟩,
          .key "e-mail".toList, .index 0] := by
  have hwidgets : samplePath.text ∉ Options.default.widgetHelpers := by decide +kernel
  have hreserved : samplePath.text ∉ Options.default.reservedWords := by decide +kernel
  have hneeds : samplePath.needsLookUp = true := by decide +kernel
  obtain ⟨-, hrewrite, -, -, hread⟩ :=
    preprocess_writtenPath samplePath (by decide +kernel) hwidgets hreserved
  exact ⟨by decide +kernel, hwidgets, hreserved, hneeds, hrewrite.2 hneeds, hread⟩

end MustachePath
