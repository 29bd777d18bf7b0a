import MustachePath.Proofs.Clauses
import MustachePath.Proofs.Replacements

/-!
# Calls in parentheses as arguments

A call without further calls in it is one token, a group, and a helper on a group stays as written.
A call with a call in it is no group: its first word is taken for the helper's path. Whether such a
tag is rewritten depends on that word alone (`decision_callTag`).
-/

namespace MustachePath

/-- What stands between the parentheses of a call: names and further calls. -/
inductive Nesting where
  | name (n : Name)
  | group (items : List Nesting)

namespace Nesting

mutual

/-- A name, or the items of a call with single spaces between them. -/
def text : Nesting → Text
  | name n => n.text
  | group items => '(' :: Text.joinSpaced (texts items) ++ [')']

/-- The texts of the items. -/
def texts : List Nesting → List Text
  | [] => []
  | x :: xs => x.text :: texts xs

end

/-- Whether an item is a call. -/
def isCall : Nesting → Bool
  | name _ => false
  | group _ => true

/-- A property of names, and of calls whose items have it, holds of every item. -/
theorem induct {motive : Nesting → Prop} (name : ∀ n, motive (.name n))
    (group : ∀ items, (∀ x ∈ items, motive x) → motive (.group items)) (x : Nesting) :
    motive x :=
  match x with
  | .name n => name n
  | .group items => group items (all items)
where
  all : ∀ items : List Nesting, ∀ x ∈ items, motive x
    | [] => by simp
    | y :: ys => by
        have hy := induct name group y
        have hys := all ys
        intro x hx
        obtain rfl | hx := List.mem_cons.1 hx
        · exact hy
        · exact hys x hx

theorem texts_eq_map (items : List Nesting) : texts items = items.map text := by
  induction items with
  | nil => rfl
  | cons x xs ih => rw [texts, ih, List.map_cons]

/-- A call is put together from names, parentheses and spaces. -/
theorem mem_text (x : Nesting) : ∀ c ∈ x.text, isNameChar c = true ∨ c ∈ ['(', ')', ' '] := by
  induction x using induct with
  | name n =>
      intro c hc
      exact Or.inl (n.isName.2 c hc)
  | group items ih =>
      intro c hc
      simp only [text, texts_eq_map, List.cons_append, List.mem_cons, List.mem_append,
        List.not_mem_nil, or_false] at hc
      obtain rfl | hc | rfl := hc
      · exact Or.inr (by decide)
      · obtain rfl | ⟨t, ht, hc⟩ := Text.mem_joinSpaced hc
        · exact Or.inr (by decide)
        · obtain ⟨x, hx, rfl⟩ := List.mem_map.1 ht
          exact ih x hx c hc
      · exact Or.inr (by decide)

/-- Items without a call have no parentheses. -/
theorem flat_items {items : List Nesting} (h : ∀ x ∈ items, x.isCall = false) :
    '(' ∉ Text.joinSpaced (texts items) ∧ ')' ∉ Text.joinSpaced (texts items) := by
  have hmem : ∀ c ∈ Text.joinSpaced (texts items), c = ' ' ∨ isNameChar c = true := by
    intro c hc
    obtain rfl | ⟨t, ht, hc⟩ := Text.mem_joinSpaced hc
    · exact Or.inl rfl
    · rw [texts_eq_map] at ht
      obtain ⟨x, hx, rfl⟩ := List.mem_map.1 ht
      cases x with
      | name n => exact Or.inr (n.isName.2 c hc)
      | group inner => exact absurd (h _ hx) (by simp [isCall])
  constructor
  · intro hopen
    obtain h | h := hmem _ hopen <;> exact absurd h (by decide)
  · intro hclose
    obtain h | h := hmem _ hclose <;> exact absurd h (by decide)

/-- Among items with a call, a parenthesis opens before one closes. -/
theorem nested_items {items : List Nesting} (h : ∃ x ∈ items, x.isCall = true) :
    ∃ a b, Text.joinSpaced (texts items) = a ++ '(' :: b ∧ ')' ∉ a := by
  induction items with
  | nil => simp at h
  | cons x xs ih =>
      rw [texts, Text.joinSpaced_cons]
      cases x with
      | group inner => exact ⟨[], _, by rw [text]; rfl, by simp⟩
      | name n =>
          have hxs : ∃ x ∈ xs, x.isCall = true := by
            obtain ⟨x, hx, hcall⟩ := h
            obtain rfl | hx := List.mem_cons.1 hx
            · simp [isCall] at hcall
            · exact ⟨x, hx, hcall⟩
          obtain ⟨a, b, hab, ha⟩ := ih hxs
          cases xs with
          | nil => simp at hxs
          | cons y ys =>
              rw [texts, Text.joinSpaced_cons] at hab
              refine ⟨n.text ++ ' ' :: a, b, ?_, ?_⟩
              · rw [texts, List.flatMap_cons, List.cons_append, hab, text]
                simp
              · simp only [List.mem_append, List.mem_cons, not_or]
                refine ⟨fun hc => ?_, by decide, ha⟩
                exact absurd (n.isName.2 _ hc) (by decide)

end Nesting

/-- The beginning of a text up to the first white space. -/
def Text.firstWord (cs : Text) : Text := cs.takeWhile (!isBlank ·)

theorem Text.firstWord_append (cs : Text) {rest : Text} (hrest : rest.Breaks) :
    (cs ++ rest).firstWord = cs.firstWord := by
  unfold firstWord
  induction cs with
  | nil => exact takeWhile_eq_nil_of_stops hrest
  | cons c cs ih =>
      by_cases hc : isBlank c = true
      · simp [hc]
      · simp [hc, ih]

/-- The word that is read as the path where a call stands: all of it, or its first word if there are
calls in it. -/
def Nesting.pathWord (items : List Nesting) : Text :=
  if items.any isCall then (Nesting.group items).text.firstWord else (Nesting.group items).text

/-- A call begins with its path word. -/
theorem tokenize_group (items : List Nesting) {rest : Text} (hrest : rest.Breaks) :
    ∃ ts, tokenize ((Nesting.group items).text ++ rest) = Nesting.pathWord items :: ts := by
  have htext : (Nesting.group items).text ++ rest =
      '(' :: Text.joinSpaced (Nesting.texts items) ++ ')' :: rest := by
    simp [Nesting.text]
  by_cases hany : items.any Nesting.isCall = true
  · have hnested : ∃ x ∈ items, x.isCall = true := by simpa using hany
    obtain ⟨a, b, hab, ha⟩ := Nesting.nested_items hnested
    have hgroup : Token.readGroup? ('(' :: (Text.joinSpaced (Nesting.texts items) ++ ')' :: rest)) =
        none := by
      rw [Token.readGroup?, hab, List.append_assoc, List.cons_append,
        Token.readUntil?_eq_none (by decide) ha]
      rfl
    have hword := Text.firstWord_append (Nesting.group items).text hrest
    rw [Nesting.pathWord, if_pos hany, ← hword, htext, List.cons_append,
      tokenize_paren_of_readGroup? hgroup]
    exact ⟨_, rfl⟩
  · have hflat : ∀ x ∈ items, x.isCall = false := by simpa using hany
    obtain ⟨hopen, hclose⟩ := Nesting.flat_items hflat
    rw [Nesting.pathWord, if_neg hany, htext, tokenize_group_append hclose hopen]
    exact ⟨_, by rw [Nesting.text]⟩

theorem head?_pathWord (items : List Nesting) : ∃ r, Nesting.pathWord items = '(' :: r := by
  have hblank : isBlank '(' = false := rfl
  unfold Nesting.pathWord
  split
  · rw [Nesting.text, Text.firstWord, List.cons_append, List.takeWhile_cons, hblank]
    exact ⟨_, rfl⟩
  · exact ⟨_, by rw [Nesting.text]; rfl⟩

/-- A word that begins with a parenthesis is looked up unless it closes one or is reserved. -/
theorem pathUse_paren (o : Options) (r : Text) (arguments : Option Text) :
    (∃ call, pathUse o ('(' :: r) arguments = .lookUp call) ↔
      ('(' :: r).getLast? ≠ some ')' ∧ '(' :: r ∉ o.reservedWords := by
  have hrelative : isRelative ('(' :: r) = false := rfl
  have hcontext : isContextPath ('(' :: r) = false := rfl
  have hliteral : Text.isLiteral ('(' :: r) = false := by
    simp [Text.isLiteral, Text.isDelimitedBy]
  have hname : Token.readName? ('(' :: r) = none :=
    Token.readName?_eq_none_iff.2 (Text.stops_cons.2 (by decide))
  have hnative : isNative ('(' :: r) = false := by
    simp [isNative, hcontext, hname]
  by_cases hlast : ('(' :: r).getLast? = some ')'
  · have hgroup : isGroup ('(' :: r) = true := by simp [isGroup, hlast]
    simp [pathUse, hgroup, hlast]
  · have hgroup : isGroup ('(' :: r) = false := by simp [isGroup, hlast]
    by_cases hreserved : '(' :: r ∈ o.reservedWords
    · simp [pathUse, hgroup, hrelative, hcontext, hreserved]
    · simp [pathUse, hgroup, hrelative, hcontext, hreserved, hliteral, hnative, hlast]

/-- What stands between the bars of a clause for block parameters. -/
structure Params where
  text : Text
  no_bar : '|' ∉ text
  no_braces : '{' ∉ text ∧ '}' ∉ text

/-- How a tag is opened: as an expression or as a block, which may have parameters. -/
inductive Form where
  | expression
  | block (inverse : Bool) (params : Option Params)

/-- The clause of a form, with a space before it. -/
def Form.clause : Form → Text
  | expression => []
  | block _ none => []
  | block _ (some params) => ' ' :: clauseText [' '] params.text

/-- A text as the inner text of a tag of this form. -/
def Form.write (form : Form) (t : Text) : Text :=
  match form with
  | expression => t
  | block inverse _ => (if inverse then '^' else '#') :: (t ++ form.clause)

namespace Form

variable (form : Form) {t : Text}

theorem braceless_write (ht : ∀ c ∈ t, c ≠ '{' ∧ c ≠ '}') :
    ∀ c ∈ form.write t, c ≠ '{' ∧ c ≠ '}' := by
  cases form with
  | expression => exact ht
  | block inverse params =>
      intro c hc
      simp only [write, List.mem_cons] at hc
      obtain hc | hc := hc
      · cases inverse <;> (rw [hc]; decide)
      · obtain hc | hc := List.mem_append.1 hc
        · exact ht c hc
        · cases params with
          | none => simp [clause] at hc
          | some params =>
              simp only [clause, clauseText, List.mem_cons, List.mem_append, List.not_mem_nil,
                or_false] at hc
              obtain rfl | rfl | rfl | rfl | rfl | hc | rfl := hc
              · decide
              · decide
              · decide
              · decide
              · decide
              · exact ⟨fun h => params.no_braces.1 (h ▸ hc), fun h => params.no_braces.2 (h ▸ hc)⟩
              · decide

theorem leads_write (ht : Markers.Leads t) : Markers.Leads (form.write t) := by
  cases form with
  | expression => exact ht
  | block inverse params =>
      cases inverse with
      | false => exact ⟨'#', _, rfl, by decide⟩
      | true => exact ⟨'^', _, rfl, by decide⟩

/-- A tag ends like its text, or with the bar of its clause. -/
theorem getLast?_write {P : Char → Prop} (hne : t ≠ []) (ht : ∀ c ∈ t.getLast?, P c)
    (hbar : P '|') :
    ∀ c ∈ (form.write t).getLast?, P c := by
  intro c hc
  cases form with
  | expression => exact ht c hc
  | block inverse params =>
      cases params with
      | none =>
          rw [write, clause, List.append_nil, List.getLast?_cons_of_ne_nil hne] at hc
          exact ht c hc
      | some params =>
          have hsplit : (block inverse (some params)).write t =
              ((if inverse then '^' else '#') ::
                (t ++ ' ' :: 'a' :: 's' :: ' ' :: '|' :: params.text)) ++ ['|'] := by
            simp [write, clause, clauseText]
          rw [hsplit, List.getLast?_concat, Option.mem_some] at hc
          rwa [← hc]

/-- A tag without markers at its ends has none. -/
theorem strip_write (ht : Markers.Leads t) (hend : ∀ c ∈ t.getLast?, isBlank c = false ∧ c ≠ '~') :
    Text.trim (form.write t) = form.write t ∧
      Markers.strip (form.write t) = (form.write t, ⟨false, false, false⟩) := by
  have hne : t ≠ [] := by
    obtain ⟨c, r, rfl, -⟩ := ht
    exact List.cons_ne_nil c r
  obtain ⟨c, r, heq, hblank, htilde, hand, -⟩ := form.leads_write ht
  have hlast := form.getLast?_write hne hend (by decide)
  apply Markers.strip_eq_self
  · rw [heq]
    exact List.cons_ne_nil c r
  · rw [heq]
    simp [hblank, htilde, hand]
  · exact hlast

/-- A tag is read as its text, whatever clause follows it. -/
theorem expressionOf_write (o : Options) (hplain : opensBlock t = false)
    (hlast : ∀ c ∈ t.getLast?, isBlank c = false ∧ c ≠ '|') :
    expressionOf o (form.write t) = .ofTokens o.widgetHelpers (tokenize t) := by
  cases form with
  | expression => exact expressionOf_of_opensBlock_eq_false hplain
  | block inverse params =>
      have hsign : (if inverse then '^' else '#') = '#' ∨ (if inverse then '^' else '#') = '^' := by
        cases inverse with
        | false => exact Or.inl rfl
        | true => exact Or.inr rfl
      have hsplit : (splitBlockClause (t ++ (block inverse params).clause)).1 = t := by
        cases params with
        | none => rw [clause, List.append_nil, splitBlockClause_eq_self hlast]
        | some params =>
            rw [clause, splitBlockClause_clauseText (fun c hc => (hlast c hc).1) params.no_bar]
      rw [write, expressionOf_cons hsign, hsplit]

end Form

/-- The further names of a call, each after a space. -/
def furtherNames (arguments : List Name) : Text := arguments.flatMap fun n => ' ' :: n.text

/-- The inner text of a tag with a helper, a call as its first argument, and further names. -/
def callTag (form : Form) (helper : Name) (items : List Nesting) (arguments : List Name) : Text :=
  form.write (helper.text ++ ' ' :: ((Nesting.group items).text ++ furtherNames arguments))

section CallTag

variable (form : Form) (helper : Name) (items : List Nesting) (arguments : List Name)

theorem mem_furtherNames : ∀ c ∈ furtherNames arguments, isNameChar c = true ∨ c = ' ' := by
  intro c hc
  obtain ⟨n, -, hc⟩ := List.mem_flatMap.1 hc
  obtain rfl | hc := List.mem_cons.1 hc
  · exact Or.inr rfl
  · exact Or.inl (n.isName.2 c hc)

theorem getLast?_furtherNames : ∀ c ∈ (furtherNames arguments).getLast?, isNameChar c = true := by
  intro c hc
  obtain rfl | ⟨ns, n, rfl⟩ := List.eq_nil_or_concat arguments
  · simp [furtherNames] at hc
  · have hsplit : furtherNames (ns.concat n) = (furtherNames ns ++ [' ']) ++ n.text := by
      simp [furtherNames]
    rw [hsplit, Text.getLast?_append_of_ne_nil n.isName.1] at hc
    exact n.isName.2 c (List.mem_of_getLast? hc)

theorem mem_callTag : ∀ c ∈ callTag form helper items arguments, c ≠ '{' ∧ c ≠ '}' := by
  have hname : ∀ c, isNameChar c = true → c ≠ '{' ∧ c ≠ '}' := by
    intro c hc
    obtain ⟨-, -, ho, hb, -⟩ := IsName.excludes hc
    exact ⟨ho, hb⟩
  apply form.braceless_write
  intro c hc
  rw [List.mem_append, List.mem_cons, List.mem_append] at hc
  obtain hc | rfl | hc | hc := hc
  · exact hname c (helper.isName.2 c hc)
  · decide
  · obtain hc | hc := Nesting.mem_text _ c hc
    · exact hname c hc
    · simp only [List.mem_cons, List.not_mem_nil, or_false] at hc
      obtain rfl | rfl | rfl := hc <;> decide
  · obtain hc | rfl := mem_furtherNames arguments c hc
    · exact hname c hc
    · decide

theorem leads_callText : Markers.Leads
    (helper.text ++ ' ' :: ((Nesting.group items).text ++ furtherNames arguments)) := by
  obtain ⟨c, r, heq, h⟩ := Markers.leads_of_isName helper.isName
  exact ⟨c, _, by rw [heq]; rfl, h⟩

/-- A call ends with a closing parenthesis or a name. -/
theorem getLast?_callText :
    ∀ c ∈ (helper.text ++ ' ' :: ((Nesting.group items).text ++ furtherNames arguments)).getLast?,
      isBlank c = false ∧ c ≠ '|' ∧ c ≠ '~' := by
  intro c hc
  have hshape : helper.text ++ ' ' :: ((Nesting.group items).text ++ furtherNames arguments) =
      (helper.text ++ ' ' :: '(' :: Text.joinSpaced (Nesting.texts items)) ++
        ')' :: furtherNames arguments := by
    simp [Nesting.text]
  rw [hshape, Text.getLast?_append_of_ne_nil (List.cons_ne_nil _ _)] at hc
  obtain hnil | hne := Decidable.em (furtherNames arguments = [])
  · rw [hnil] at hc
    obtain rfl : ')' = c := by simpa using hc
    decide
  · rw [List.getLast?_cons_of_ne_nil hne] at hc
    obtain ⟨hblank, htilde, -, -, hbar, -⟩ :=
      IsName.excludes (getLast?_furtherNames arguments c hc)
    exact ⟨hblank, hbar, htilde⟩

theorem leads_callTag : Markers.Leads (callTag form helper items arguments) :=
  form.leads_write (leads_callText helper items arguments)

/-- A tag with a call stands as it is written: it has no markers and is no comment. -/
theorem strip_callTag : Text.trim (callTag form helper items arguments) =
      callTag form helper items arguments ∧
    Markers.strip (callTag form helper items arguments) =
      (callTag form helper items arguments, ⟨false, false, false⟩) := by
  apply form.strip_write (leads_callText helper items arguments)
  intro c hc
  obtain ⟨hblank, -, htilde⟩ := getLast?_callText helper items arguments c hc
  exact ⟨hblank, htilde⟩

end CallTag

/-- Whether the first word of a call is looked up in place of the call: there is a call in the call,
the word closes no parenthesis and is not reserved, and the tag is no control tag. -/
def Exposed (o : Options) (form : Form) (helper : Name) (items : List Nesting) : Prop :=
  items.any Nesting.isCall = true ∧ (Nesting.group items).text.firstWord.getLast? ≠ some ')' ∧
    (Nesting.group items).text.firstWord ∉ o.reservedWords ∧
    (form = .expression → helper.text ≠ ['e', 'l', 's', 'e'])

section Decision

variable (o : Options) (form : Form) (helper : Name) (items : List Nesting) (arguments : List Name)

/-- A tag with a call is read as its helper on the call's path word. -/
theorem expressionOf_callTag : ∃ rest,
    expressionOf o (callTag form helper items arguments) =
      .onPath helper.text (Nesting.pathWord items) rest := by
  have hrest : (furtherNames arguments).Breaks := by
    cases arguments with
    | nil => exact Text.stops_nil _
    | cons n ns => exact Text.stops_cons.2 rfl
  obtain ⟨ts, hts⟩ := tokenize_group items hrest
  obtain ⟨r, hr⟩ := head?_pathWord items
  have hequals : Text.Stops (· == '=')
      (Text.trimStart (' ' :: ((Nesting.group items).text ++ furtherNames arguments))) := by
    rw [Nesting.text]
    exact Text.stops_cons.2 rfl
  have hpair : isPairShaped (Nesting.pathWord items) = false := by
    have hstop : Text.Stops isNameChar ('(' :: r) := Text.stops_cons.2 (by decide)
    rw [isPairShaped, hr, Token.pairKey?_eq_none_of_stops hstop]
    rfl
  obtain ⟨further, hfurther, -⟩ :=
    Expression.ofTokens_cons_cons o.widgetHelpers ts helper.text hpair
  refine ⟨further, ?_⟩
  rw [callTag, form.expressionOf_write o (opensBlock_of_isName helper.isName),
    tokenize_name_append helper.isName (Text.stops_cons.2 rfl) hequals, tokenize_space_cons, hts,
    hfurther]
  intro c hc
  obtain ⟨hblank, hbar, -⟩ := getLast?_callText helper items arguments c hc
  exact ⟨hblank, hbar⟩

theorem isControl_callTag : isControl (callTag form helper items arguments) = true ↔
    form = .expression ∧ helper.text = ['e', 'l', 's', 'e'] := by
  cases form with
  | expression =>
      have hspace : Text.Stops isNameChar
          (' ' :: ((Nesting.group items).text ++ furtherNames arguments)) :=
        Text.stops_cons.2 (by decide)
      rw [callTag, Form.write, isControl_name_append helper.isName hspace]
      simp [isBlank]
  | block inverse params =>
      cases inverse <;> simp [callTag, Form.write, isControl]

/-- A tag with a call is rewritten exactly if the first word of the call is exposed. -/
theorem isRewrite_callTag :
    (∃ new, Decision.ofBody o (callTag form helper items arguments) = .rewrite new) ↔
      Exposed o form helper items := by
  have hcontrol := isControl_callTag form helper items arguments
  have hstrip := (strip_callTag form helper items arguments).2
  cases hc : isControl (callTag form helper items arguments) with
  | true =>
      obtain ⟨hform, helse⟩ := hcontrol.1 hc
      constructor
      · rintro ⟨new, hnew⟩
        simp [Decision.ofBody, hstrip, hc] at hnew
      · intro h
        exact absurd helse (h.2.2.2 hform)
  | false =>
      have hfree : form = .expression → helper.text ≠ ['e', 'l', 's', 'e'] := by
        intro hform helse
        rw [hcontrol.2 ⟨hform, helse⟩] at hc
        exact absurd hc (by simp)
      obtain ⟨rest, hread⟩ := expressionOf_callTag o form helper items arguments
      obtain ⟨r, hr⟩ := head?_pathWord items
      rw [isRewrite_ofBody_iff (by rw [hstrip]; exact hc) (by rw [hstrip]; exact hread), hr,
        pathUse_paren, ← hr]
      unfold Nesting.pathWord Exposed
      by_cases hany : items.any Nesting.isCall = true
      · simp only [hany, if_true, true_and]
        constructor
        · rintro ⟨hlast, hreserved⟩
          exact ⟨hlast, hreserved, hfree⟩
        · rintro ⟨hlast, hreserved, -⟩
          exact ⟨hlast, hreserved⟩
      · have hclose : (Nesting.group items).text.getLast? = some ')' := by
          rw [Nesting.text]
          exact List.getLast?_concat
        simp [hany, hclose]

/-- A template with a single tag that has a call for its first argument: the tag is rewritten
exactly if the first word of the call is exposed, and stays as written otherwise. -/
theorem decision_callTag :
    tags (braced (callTag form helper items arguments)) =
        [⟨callTag form helper items arguments, .start⟩] ∧
      ((∃ new, Tag.decision o ⟨callTag form helper items arguments, .start⟩ = .rewrite new) ↔
        Exposed o form helper items) ∧
      (¬ Exposed o form helper items →
        preprocess o (braced (callTag form helper items arguments)) =
          braced (callTag form helper items arguments)) := by
  have hmem := mem_callTag form helper items arguments
  have hopen : '{' ∉ callTag form helper items arguments := fun h => (hmem _ h).1 rfl
  have hclose : '}' ∉ callTag form helper items arguments := fun h => (hmem _ h).2 rfl
  have hcomment : commentInner? (callTag form helper items arguments ++ ['}', '}']) = none :=
    Markers.commentInner?_lead_append ⟨false, false, false⟩
      (leads_callTag form helper items arguments) ['}', '}']
  have htrim := (strip_callTag form helper items arguments).1
  refine ⟨tags_braced hopen hclose hcomment, ?_, fun hexposed => ?_⟩
  · rw [Tag.decision, Tag.body, htrim]
    exact isRewrite_callTag o form helper items arguments
  · rw [preprocess_braced hopen hclose hcomment]
    apply tagOutput_eq_braced
    rw [htrim]
    cases hbody : Decision.ofBody o (callTag form helper items arguments) with
    | control => rfl
    | leave reason => rfl
    | invalid reason => rfl
    | rewrite new =>
        exact absurd ((isRewrite_callTag o form helper items arguments).1 ⟨new, hbody⟩) hexposed

end Decision

/-- A block with a parameter on a call without further calls, and a name after the call. -/
theorem decision_callTag_flat :
    ¬ Exposed Options.default (.block false (some ⟨['x'], by decide, by decide⟩))
        ⟨"with".toList, by decide +kernel⟩
        [.name ⟨"pick".toList, by decide +kernel⟩, .name ⟨"a".toList, by decide +kernel⟩] ∧
      preprocess Options.default (braced "#with (pick a) b as |x|".toList) =
        braced "#with (pick a) b as |x|".toList := by
  have hflat : ¬ Exposed Options.default (.block false (some ⟨['x'], by decide, by decide⟩))
      ⟨"with".toList, by decide +kernel⟩
      [.name ⟨"pick".toList, by decide +kernel⟩, .name ⟨"a".toList, by decide +kernel⟩] := by
    rintro ⟨hany, -⟩
    exact absurd hany (by decide)
  have htext : callTag (.block false (some ⟨['x'], by decide, by decide⟩))
      ⟨"with".toList, by decide +kernel⟩
      [.name ⟨"pick".toList, by decide +kernel⟩, .name ⟨"a".toList, by decide +kernel⟩]
      [⟨"b".toList, by decide +kernel⟩] = "#with (pick a) b as |x|".toList := by decide +kernel
  have hkept := (decision_callTag Options.default _ _ _ [⟨"b".toList, by decide +kernel⟩]).2.2 hflat
  rw [htext] at hkept
  exact ⟨hflat, hkept⟩

/-- The items of the call `(and (eq a b) c)`. -/
def andItems : List Nesting :=
  [.name ⟨"and".toList, by decide +kernel⟩,
    .group [.name ⟨"eq".toList, by decide +kernel⟩, .name ⟨"a".toList, by decide +kernel⟩,
      .name ⟨"b".toList, by decide +kernel⟩],
    .name ⟨"c".toList, by decide +kernel⟩]

/-- A call in a call exposes its first word: not every call stays as written. -/
theorem not_opaque_callTag :
    ¬ ∀ (o : Options) (form : Form) (helper : Name) (items : List Nesting)
        (arguments : List Name), o.isValid = true →
      (∀ new, Tag.decision o ⟨callTag form helper items arguments, .start⟩ ≠ .rewrite new) ∧
        preprocess o (braced (callTag form helper items arguments)) =
          braced (callTag form helper items arguments) := by
  intro h
  have hsame := (h Options.default .expression ⟨"if".toList, by decide +kernel⟩ andItems []
    (by decide +kernel)).2
  have htext : callTag .expression ⟨"if".toList, by decide +kernel⟩ andItems [] =
      "if (and (eq a b) c)".toList := by decide +kernel
  have hchanged : preprocess Options.default (braced "if (and (eq a b) c)".toList) =
      braced "if (convertFromDotNotation this \"(and\") (eq a b) c )".toList := by decide +kernel
  rw [htext, hchanged] at hsame
  exact absurd hsame (by decide +kernel)

end MustachePath
