import MustachePath.Proofs.Calls

/-!
# The literal of a path

Escaping a path puts a backslash before exactly those quotes that an even run of backslashes
precedes (`protectQuotes_laws`). The escaped path between quotes is one token, unless a backslash of
the path takes the closing quote or a line feed with it (`readAll_literal_iff`).
-/

namespace MustachePath

/-! ## Runs of backslashes -/

/-- The length of the run of backslashes at the end of a text. -/
def slashRun (cs : Text) : Nat := (cs.reverse.takeWhile (· == '\\')).length

theorem slashRun_concat_slash (cs : Text) : slashRun (cs ++ ['\\']) = slashRun cs + 1 := by
  simp [slashRun]

theorem slashRun_concat {c : Char} (hc : c ≠ '\\') (cs : Text) : slashRun (cs ++ [c]) = 0 := by
  simp [slashRun, hc]

/-- The backslashes of a run hide each other in turn, so that the length of the run tells whether
the last one hides the next character. -/
theorem hidesNext_eq_true_iff (cs : Text) : hidesNext false cs = true ↔ slashRun cs % 2 = 1 := by
  induction cs using List.reverseRecOn with
  | nil => simp [hidesNext, slashRun]
  | append_singleton cs c ih =>
      rw [hidesNext_concat]
      by_cases hc : c = '\\'
      · rw [hc, slashRun_concat_slash]
        cases hhides : hidesNext false cs with
        | true =>
            have hodd := ih.1 hhides
            simp
            omega
        | false =>
            have heven : ¬ slashRun cs % 2 = 1 := fun hodd => by simp [ih.2 hodd] at hhides
            simp
            omega
      · simp [slashRun_concat hc, hc]

theorem hidesNext_eq_false_iff (cs : Text) : hidesNext false cs = false ↔ slashRun cs % 2 = 0 := by
  rw [← Bool.not_eq_true, hidesNext_eq_true_iff]
  omega

/-! ## What escaping changes -/

/-- A character of a path in the escaped path, given what stands before it in the path: a quote
after an even run of backslashes gets one more. -/
def escapedAfter (front : Text) (c : Char) : Text :=
  if c = '"' ∧ slashRun front % 2 = 0 then ['\\', c] else [c]

theorem protectQuotesFrom_eq_flatMap (front cs : Text) :
    protectQuotesFrom (hidesNext false front) cs =
      (cs.zipIdx front.length).flatMap fun x => escapedAfter ((front ++ cs).take x.2) x.1 := by
  induction cs generalizing front with
  | nil => rfl
  | cons c cs ih =>
      have hrest := ih (front ++ [c])
      rw [hidesNext_concat, List.length_append, List.append_assoc] at hrest
      rw [List.zipIdx_cons, List.flatMap_cons, List.take_left]
      by_cases hc : c = '"' ∧ hidesNext false front = false
      · have hflag : (c == '\\' && !hidesNext false front) = false := by simp [hc.1]
        rw [hflag] at hrest
        rw [protectQuotesFrom_cons_of_quote cs hc, hrest, escapedAfter,
          if_pos ⟨hc.1, (hidesNext_eq_false_iff front).1 hc.2⟩]
        rfl
      · rw [protectQuotesFrom_cons cs hc, escapedAfter,
          if_neg fun h => hc ⟨h.1, (hidesNext_eq_false_iff front).2 h.2⟩]
        exact congrArg (c :: ·) hrest

/-- Whether a backslash hides each occurrence of a character, or none of them. The first flag says
which, and the second one whether a backslash hides the first character of the text. -/
def HidesEach (x : Char) (hides hidden : Bool) (cs : Text) : Prop :=
  ∀ front back, cs = front ++ x :: back → hidesNext hidden front = hides

theorem hidesEach_nil (x : Char) (hides hidden : Bool) : HidesEach x hides hidden [] := by
  intro front back h
  simp at h

theorem hidesEach_cons {x c : Char} {hides hidden : Bool} {cs : Text} :
    HidesEach x hides hidden (c :: cs) ↔
      (c = x → hidden = hides) ∧ HidesEach x hides (c == '\\' && !hidden) cs := by
  constructor
  · intro h
    refine ⟨?_, fun front back hcs => h (c :: front) back (by rw [hcs]; rfl)⟩
    rintro rfl
    exact h [] cs rfl
  · rintro ⟨hc, h⟩ front back hcs
    cases front with
    | nil => exact hc (List.cons.inj hcs).1
    | cons d front =>
        obtain ⟨rfl, hback⟩ := List.cons.inj hcs
        exact h front back hback

/-- In the escaped path a backslash hides each quote. -/
theorem hidesEach_protectQuotesFrom (hidden : Bool) (cs : Text) :
    HidesEach '"' true hidden (protectQuotesFrom hidden cs) := by
  induction cs generalizing hidden with
  | nil => exact hidesEach_nil _ _ _
  | cons c cs ih =>
      by_cases hc : c = '"' ∧ hidden = false
      · obtain ⟨rfl, rfl⟩ := hc
        rw [protectQuotesFrom_cons_of_quote cs ⟨rfl, rfl⟩, hidesEach_cons, hidesEach_cons]
        exact ⟨by decide, fun _ => rfl, ih false⟩
      · rw [protectQuotesFrom_cons cs hc, hidesEach_cons]
        exact ⟨fun h => by simpa [h] using hc, ih _⟩

/-- Where a backslash hides each quote, escaping has nothing to add. -/
theorem protectQuotesFrom_eq_self {hidden : Bool} {cs : Text} (h : HidesEach '"' true hidden cs) :
    protectQuotesFrom hidden cs = cs := by
  induction cs generalizing hidden with
  | nil => rfl
  | cons c cs ih =>
      obtain ⟨hc, hcs⟩ := hidesEach_cons.1 h
      rw [protectQuotesFrom_cons cs fun hquote => by simp [hc hquote.1] at hquote]
      exact congrArg (c :: ·) (ih hcs)

/-- Escaping changes only what it must. A backslash comes before each quote that follows an even run
of backslashes, and all else stays; then every quote follows an odd run, escaping once more changes
nothing, and a path without backslashes is what its literal stands for. -/
theorem protectQuotes_laws (p : Text) :
    protectQuotes p = (p.zipIdx.flatMap fun x => escapedAfter (p.take x.2) x.1) ∧
      (∀ front back, protectQuotes p = front ++ '"' :: back → slashRun front % 2 = 1) ∧
      protectQuotes (protectQuotes p) = protectQuotes p ∧
      ('\\' ∉ p → Text.literalValue ('"' :: protectQuotes p ++ ['"']) = p) := by
  have hhidden := hidesEach_protectQuotesFrom false p
  refine ⟨protectQuotesFrom_eq_flatMap [] p, ?_, protectQuotesFrom_eq_self hhidden, ?_⟩
  · intro front back h
    exact (hidesNext_eq_true_iff front).1 (hhidden front back h)
  · intro h
    have hvalue : Text.literalValue (LookUp.literal ⟨p, [], []⟩) = p := literalValue_literal h
    exact hvalue

/-- Of three quotes the second one is escaped already, and the two backslashes before the first one
only escape each other. -/
theorem protectQuotes_laws_mixed :
    protectQuotes "a\\\\\"b\\\"c\"".toList = "a\\\\\\\"b\\\"c\\\"".toList ∧
    protectQuotes "a\\\\\\\"b\\\"c\\\"".toList = "a\\\\\\\"b\\\"c\\\"".toList ∧
    slashRun "a\\\\\\".toList % 2 = 1 ∧
    Text.literalValue ('"' :: protectQuotes "n[\"x\"]".toList ++ ['"']) = "n[\"x\"]".toList := by
  have hescaped : protectQuotes "a\\\\\"b\\\"c\"".toList = "a\\\\\\\"b\\\"c\\\"".toList := by
    rw [(protectQuotes_laws _).1]
    decide +kernel
  refine ⟨hescaped, ?_, ?_, (protectQuotes_laws _).2.2.2 (by decide)⟩
  · rw [← hescaped]
    exact (protectQuotes_laws _).2.2.1
  · exact (protectQuotes_laws "a\\\\\"b\\\"c\"".toList).2.1 _ "b\\\"c\\\"".toList hescaped

namespace Token

/-! ## Reading a literal -/

theorem readAll_of_read? {cs r : Text} {t : Token} (hs : Text.Stops isBlank cs)
    (h : read? cs = some (t, r)) : readAll cs = t :: readAll r := by
  rw [readAll_eq_match, Text.trimStart_eq_self hs, h]

theorem readAll_nil : readAll [] = [] := by
  rw [readAll_eq_match]
  rfl

/-- A quote at the front begins a literal, or else a run of characters. -/
theorem read?_quote_cons (cs : Text) :
    read? ('"' :: cs) = ((readQuoted? ('"' :: cs)).map fun p => (quoted p.1, p.2)).or
      ((readRun? ('"' :: cs)).map fun p => (run p.1, p.2)) := by
  have hstops : Text.Stops isNameChar ('"' :: cs) := Text.stops_cons.2 (by decide)
  have hpath : readPath? ('"' :: cs) = none := readPath?_eq_none_iff.2 ⟨hstops, rfl⟩
  have hgroup : readGroup? ('"' :: cs) = none := rfl
  rw [read?, readPair?_eq_none_of_stops hstops, hpath, hgroup]
  rfl

/-- A text is one literal exactly if the reader of literals takes all of it. -/
theorem readAll_eq_quoted_iff (cs : Text) :
    readAll ('"' :: cs) = [quoted ('"' :: cs)] ↔
      readQuoted? ('"' :: cs) = some ('"' :: cs, []) := by
  have hquote : Text.Stops isBlank ('"' :: cs) := Text.stops_cons.2 rfl
  constructor
  · intro h
    cases hread : readQuoted? ('"' :: cs) with
    | none =>
        have hrun : readRun? ('"' :: cs) = some (('"' :: cs).takeWhile (!isBlank ·),
            ('"' :: cs).dropWhile (!isBlank ·)) := by
          have hblank : isBlank '"' = false := rfl
          rw [readRun?, readWhile?, if_neg (by simp [hblank])]
        have hfirst := read?_quote_cons cs
        rw [hread, hrun] at hfirst
        rw [readAll_of_read? hquote hfirst] at h
        simp at h
    | some p =>
        obtain ⟨a, r⟩ := p
        have hfirst := read?_quote_cons cs
        rw [hread] at hfirst
        rw [readAll_of_read? hquote hfirst, List.cons.injEq] at h
        have ha : a = '"' :: cs := by simpa using h.1
        have hsplit := (readQuoted?_eq_some hread).1
        rw [ha] at hsplit ⊢
        rw [List.self_eq_append_right.1 hsplit]
  · intro h
    have hfirst := read?_quote_cons cs
    rw [h] at hfirst
    rw [readAll_of_read? hquote hfirst, readAll_nil]

theorem map_before_eq_some_iff {s a r : Text} {o : Option (Text × Text)} :
    o.map (before s) = some (s ++ a, r) ↔ o = some (a, r) := by
  cases o with
  | none => simp
  | some p => simp [before, Prod.ext_iff]

/-- An escaped character is read together with its backslash. -/
theorem readQuoteEnd?_slash_cons_iff {q c : Char} (hc : c ≠ '\n') {s a r : Text} :
    readQuoteEnd? q ('\\' :: c :: s) = some ('\\' :: c :: a, r) ↔
      readQuoteEnd? q s = some (a, r) := by
  rw [readQuoteEnd?, if_neg hc]
  exact map_before_eq_some_iff (s := ['\\', c])

theorem readQuoteEnd?_cons_iff {q c : Char} (hslash : c ≠ '\\') (hq : c ≠ q) {s a r : Text} :
    readQuoteEnd? q (c :: s) = some (c :: a, r) ↔ readQuoteEnd? q s = some (a, r) := by
  rw [readQuoteEnd?_cons hslash, if_neg hq]
  exact map_before_eq_some_iff (s := [c])

/-- The escaped path is read up to the quote after it, unless a backslash of the path takes that
quote or a line feed with it. A backslash before the path is read together with its first
character. -/
theorem readQuoteEnd?_protectQuotesFrom (hidden : Bool) (cs : Text) :
    readQuoteEnd? '"' ((if hidden then ['\\'] else []) ++ (protectQuotesFrom hidden cs ++ ['"'])) =
        some ((if hidden then ['\\'] else []) ++ (protectQuotesFrom hidden cs ++ ['"']), []) ↔
      hidesNext hidden cs = false ∧ HidesEach '\n' false hidden cs := by
  induction cs generalizing hidden with
  | nil =>
      cases hidden with
      | false => simp [protectQuotesFrom, readQuoteEnd?, hidesNext, hidesEach_nil]
      | true => simp [protectQuotesFrom, readQuoteEnd?, hidesNext]
  | cons c cs ih =>
      have hplain := ih false
      have hhidden := ih true
      simp only [Bool.false_eq_true, if_false, if_true, List.nil_append, List.cons_append]
        at hplain hhidden ⊢
      rw [hidesEach_cons]
      cases hidden with
      | true =>
          -- The backslash before the path takes the first character with it, unless that is a line
          -- feed.
          have hcons : protectQuotesFrom true (c :: cs) = c :: protectQuotesFrom false cs := by
            rw [protectQuotesFrom_cons cs (by simp), Bool.not_true, Bool.and_false]
          rw [hcons]
          by_cases hfeed : c = '\n'
          · simp [hfeed, readQuoteEnd?]
          · simp [readQuoteEnd?_slash_cons_iff hfeed, hplain, hfeed, hidesNext]
      | false =>
          by_cases hquote : c = '"'
          · have hfeed : '"' ≠ '\n' := by decide
            rw [protectQuotesFrom_cons_of_quote cs ⟨hquote, rfl⟩, hquote]
            simp [readQuoteEnd?_slash_cons_iff hfeed, hplain, hidesNext]
          · rw [protectQuotesFrom_cons cs (by simp [hquote])]
            by_cases hslash : c = '\\'
            · simpa [hslash, hidesNext] using hhidden
            · have hflag : (c == '\\') = false := beq_eq_false_iff_ne.2 hslash
              simp [readQuoteEnd?_cons_iff hslash hquote, hplain, hslash, hflag, hidesNext]

end Token

/-- Whether a path can stand between double quotes: an even number of backslashes comes directly
before its end and before each of its line feeds, so that none is left to take the closing quote or
a line feed with it. -/
def Enclosable (p : Text) : Prop :=
  slashRun p % 2 = 0 ∧ ∀ front back, p = front ++ '\n' :: back → slashRun front % 2 = 0

theorem enclosable_iff {p : Text} :
    Enclosable p ↔ hidesNext false p = false ∧ HidesEach '\n' false false p := by
  simp only [Enclosable, HidesEach, hidesNext_eq_false_iff]

namespace LookUp

variable (call : LookUp)

theorem literal_eq : call.literal = '"' :: (protectQuotes call.path ++ ['"']) := rfl

theorem readQuoted?_literal_iff :
    Token.readQuoted? call.literal = some (call.literal, []) ↔ Enclosable call.path := by
  rw [enclosable_iff, ← Token.readQuoteEnd?_protectQuotesFrom]
  exact Token.map_before_eq_some_iff (s := ['"'])

/-- The literal of a path is one token, and a quoted one, exactly if the path can stand between
quotes. -/
theorem readAll_literal_iff :
    Token.readAll call.literal = [.quoted call.literal] ↔ Enclosable call.path := by
  rw [← readQuoted?_literal_iff, literal_eq, Token.readAll_eq_quoted_iff]

/-- A literal takes nothing of the text after it. -/
theorem tokenize_literal_append (h : Enclosable call.path) (rest : Text) :
    tokenize (call.literal ++ rest) = call.literal :: tokenize rest := by
  have hquoted := Token.closing_readQuoted? (call.readQuoted?_literal_iff.2 h) rest
  have hread := Token.read?_quote_cons (protectQuotes call.path ++ ['"'] ++ rest)
  rw [← List.cons_append, ← literal_eq, hquoted] at hread
  exact tokenize_of_read? (Text.stops_cons.2 rfl) hread

end LookUp

instance (p : Text) : Decidable (Enclosable p) :=
  decidable_of_iff _ (LookUp.readQuoted?_literal_iff ⟨p, [], []⟩)

/-- Whether the text of a tag without markers holds a path that the accessor looks up: the path
stands alone, or it is the argument of a helper or of a block. -/
inductive LooksUp (o : Options) (text : Text) (call : LookUp) : Prop
  | alone {p : Text} (hplain : opensBlock text = false) (hread : expressionOf o text = .path p)
      (huse : pathUse o p none = .lookUp call)
  | argument {helper p : Text} {arguments : Option Text}
      (hread : expressionOf o text = .onPath helper p arguments)
      (huse : pathUse o p arguments = .lookUp call)

theorem isInfix_joinSpaced {t : Text} {ts : List Text} (h : t ∈ ts) :
    t <:+: Text.joinSpaced ts := by
  obtain ⟨front, back, rfl⟩ := List.append_of_mem h
  cases front with
  | nil =>
      rw [List.nil_append, Text.joinSpaced_cons]
      exact (List.prefix_append t _).isInfix
  | cons u us =>
      refine ⟨u ++ us.flatMap (fun v => ' ' :: v) ++ [' '], back.flatMap fun v => ' ' :: v, ?_⟩
      rw [List.cons_append, Text.joinSpaced_cons]
      simp

theorem isInfix_wrap (m : Markers) {t : Text} {parts : List Text} (h : t ∈ parts) :
    t <:+: m.wrap parts := by
  by_cases hne : t = []
  · rw [hne]
    exact List.nil_infix
  · have hjoined : t <:+: Text.joinSpaced (parts.filter (· ≠ [])) :=
      isInfix_joinSpaced (List.mem_filter.2 ⟨h, by simpa using hne⟩)
    refine hjoined.trans ⟨'{' :: '{' :: m.lead, m.trail ++ ['}', '}'], ?_⟩
    simp [Markers.wrap_eq, braced]

theorem isInfix_group (accessor : Text) (call : LookUp) :
    call.literal <:+: call.group accessor := by
  have hargument : call.literal <:+: call.callText accessor := isInfix_joinSpaced (by simp)
  exact hargument.trans ⟨['('], [')'], rfl⟩

/-- A path that is looked up stands in the replacement as its literal. -/
theorem LooksUp.exists_replacement {o : Options} {body : Text} {call : LookUp}
    (hcontrol : isControl (Markers.strip body).1 = false)
    (h : LooksUp o (Markers.strip body).1 call) :
    ∃ new, Decision.ofBody o body = .rewrite new ∧ call.literal <:+: new := by
  cases h with
  | alone hplain hread huse =>
      rw [expressionOf_of_opensBlock_eq_false hplain] at hread
      rw [ofBody_eq_ofExpression hcontrol hplain]
      simp only [Decision.ofExpression, hread, huse]
      exact ⟨_, rfl, isInfix_wrap _ (by simp)⟩
  | argument hread huse =>
      rw [ofBody_of_onPath hcontrol hread]
      simp only [huse]
      exact ⟨_, rfl, (isInfix_group o.accessor call).trans (isInfix_wrap _ (by simp))⟩

/-- The path of a rewritten tag stands in the replacement as a literal, which is one quoted token
exactly if no backslash of the path takes the closing quote or a line feed with it. Then the literal
ends where the path does, whatever text comes next. -/
theorem readAll_literal_of_looksUp (o : Options) (t : Tag) {call : LookUp}
    (hcontrol : isControl (Markers.strip t.body).1 = false)
    (hcall : LooksUp o (Markers.strip t.body).1 call) :
    (∃ new, t.decision o = .rewrite new ∧ call.literal <:+: new) ∧
      (Token.readAll call.literal = [.quoted call.literal] ↔ Enclosable call.path) ∧
      (Enclosable call.path → tokenize call.literal = [call.literal] ∧
        ∀ rest, tokenize (call.literal ++ rest) = call.literal :: tokenize rest) := by
  refine ⟨hcall.exists_replacement hcontrol, call.readAll_literal_iff, fun h => ⟨?_, ?_⟩⟩
  · rw [tokenize, call.readAll_literal_iff.2 h]
    rfl
  · exact call.tokenize_literal_append h

/-- The tag `list rows['a\\"b⏎'] x="1"`, where the sign stands for a line feed. -/
def literalSample : Tag := ⟨"list rows['a\\\\\"b\n'] x=\"1\"".toList, .start⟩

/-- The look-up in that tag. -/
def sampleLookUp : LookUp := ⟨"rows['a\\\\\"b\n']".toList, ["x=\"1\"".toList], []⟩

/-- Two backslashes before a quote escape only each other, and a line feed without a backslash does
no harm. -/
theorem readAll_literal_of_looksUp_sample :
    sampleLookUp.literal = "\"rows['a\\\\\\\"b\n']\"".toList ∧
      Token.readAll sampleLookUp.literal = [.quoted sampleLookUp.literal] ∧
      tokenize (sampleLookUp.literal ++ " x=\"1\")".toList) =
        sampleLookUp.literal :: tokenize " x=\"1\")".toList := by
  have hread : expressionOf Options.default (Markers.strip literalSample.body).1 =
      .onPath "list".toList sampleLookUp.path (some "x=\"1\"".toList) := by
    decide +kernel
  have hcall : LooksUp Options.default (Markers.strip literalSample.body).1 sampleLookUp :=
    .argument hread (by decide +kernel)
  have henclosable : Enclosable sampleLookUp.path := by decide +kernel
  have hlaws := readAll_literal_of_looksUp Options.default literalSample (by decide +kernel) hcall
  exact ⟨by decide, hlaws.2.1.2 henclosable, (hlaws.2.2 henclosable).2 _⟩

/-- A literal does not end where its path does if a backslash of the path takes a line feed with it:
the tokens of the literal are `"a[\` and `]"`. -/
theorem not_tokenize_literal_of_looksUp :
    ¬ ∀ (o : Options) (t : Tag) (call : LookUp), o.isValid = true →
      isControl (Markers.strip t.body).1 = false → LooksUp o (Markers.strip t.body).1 call →
      tokenize call.literal = [call.literal] := by
  intro h
  have hfeed := h Options.default ⟨"a[\\\n]".toList, .start⟩ ⟨"a[\\\n]".toList, [], []⟩
    (by decide +kernel) (by decide +kernel)
    (.alone (p := "a[\\\n]".toList) (by decide +kernel) (by decide +kernel) (by decide +kernel))
  exact absurd hfeed (by decide +kernel)

/-- A backslash at the end of a path takes the closing quote with it, and the literal goes on. -/
example : tokenize ((LookUp.literal ⟨"\\".toList, [], []⟩) ++ " \"x\"".toList) =
    ["\"\\\" \"".toList, "x".toList, "\"".toList] := by
  decide +kernel

end MustachePath
