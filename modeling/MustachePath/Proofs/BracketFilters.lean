import MustachePath.Proofs.JoinedPaths

/-!
# Comparisons in brackets and in filters

The sign that a comparison divides at does not depend on what stands after it
(`dividesAt_of_divideFrom?`), nor on white space around the comparison (`divide?_trim`). So brackets
around a comparison lead to the first item that a filter with this comparison keeps, unless the
brackets take the quotes at its two ends for one literal (`resolve_bracket_eq_head?`).
-/

namespace MustachePath

namespace Text

theorem trimStart_append_of_stops {rest : Text} (hrest : Stops isBlank rest) (cs : Text) :
    trimStart (cs ++ rest) = trimStart cs ++ rest := by
  rw [trimStart, List.dropWhile_append, dropWhile_eq_self_of_stops hrest]
  split
  · rename_i hempty
    rw [trimStart, List.isEmpty_iff.1 hempty, List.nil_append]
  · rfl

theorem trim_trim (cs : Text) : trim (trim cs) = trim cs :=
  trim_eq_self (stops_trim cs) (getLast?_trim cs)

theorem trim_trimStart (cs : Text) : trim (trimStart cs) = trim cs := by
  have hstops : Stops isBlank (trimStart cs) := stops_dropWhile isBlank cs
  rw [trim, trimStart_eq_self hstops, trim]

theorem trim_trimEnd (cs : Text) : trim (trimEnd cs) = trim cs := by
  obtain ⟨w, hw, hblank⟩ := Token.append_trimStart cs
  have hstops : Stops isBlank (trimStart cs) := stops_dropWhile isBlank cs
  cases hstart : trimStart cs with
  | nil =>
      rw [hstart, List.append_nil] at hw
      rw [hw, trimEnd_of_blank hblank, trim, trim, ← hw, hstart]
      rfl
  | cons c r =>
      rw [hstart] at hw hstops
      have hc := stops_cons.1 hstops
      have hend : trimEnd (c :: r) = c :: trimEnd r := trimEnd_append_cons [] hc r
      have hidem : trimEnd (trimEnd r) = trimEnd r := trimEnd_eq_self (getLast?_trimEnd r)
      have hend' : trimEnd (c :: trimEnd r) = c :: trimEnd r := by
        rw [← List.nil_append (c :: trimEnd r), trimEnd_append_cons [] hc, hidem]
      rw [trim, trim, hstart, hend, hw, trimEnd_append_cons w hc, trimStart_append hblank,
        trimStart_eq_self (stops_cons.2 hc), hend']

end Text

section Dividing

/-- What comes next is part of a sign or stands before it, so it does not depend on what follows. -/
theorem head?_append_sign (front : Text) (sign : Comparison) (back back' : Text) :
    (front ++ (sign.sign ++ back)).head? = (front ++ (sign.sign ++ back')).head? := by
  cases front with
  | nil => cases sign <;> rfl
  | cons c front => rfl

/-- Whether a text is divided into given parts, and at the same sign whatever stands after the
sign. -/
structure DividesAt (quote : Option Char) (cs : Text) (d : Divided) : Prop where
  text_eq : cs = d.front ++ (d.comparison.sign ++ d.back)
  divided : ∀ back, divideFrom? quote (d.front ++ (d.comparison.sign ++ back)) =
    some { d with back := back }

/-- What is passed over stands before the sign. -/
theorem DividesAt.before {quote next : Option Char} {cs : Text} {d : Divided}
    (h : DividesAt next cs d) (w : Text) (hstep : ∀ back,
      divideFrom? quote (w ++ (d.front ++ (d.comparison.sign ++ back))) =
        (divideFrom? next (d.front ++ (d.comparison.sign ++ back))).map (Divided.before w)) :
    DividesAt quote (w ++ cs) (d.before w) where
  text_eq := by
    rw [h.text_eq, Divided.before, List.append_assoc]
  divided back := by
    rw [Divided.before, List.append_assoc, hstep, h.divided]
    rfl

/-- A text is divided at the same sign whatever stands after the sign. -/
theorem dividesAt_of_divideFrom? {quote : Option Char} {cs : Text} {d : Divided}
    (h : divideFrom? quote cs = some d) : DividesAt quote cs d := by
  fun_induction divideFrom? quote cs generalizing d with
  | case1 => simp at h
  | case2 => simp at h
  | case3 q c cs ih =>
      obtain ⟨d, hd, rfl⟩ := Option.map_eq_some_iff.1 h
      exact (ih hd).before ['\\', c] fun back => divideFrom?_some_slash q c _
  | case4 q c cs hc ih =>
      obtain ⟨d, hd, rfl⟩ := Option.map_eq_some_iff.1 h
      exact (ih hd).before [c] fun back => divideFrom?_some_cons q hc _
  | case5 c cs hc ih =>
      obtain ⟨d, hd, rfl⟩ := Option.map_eq_some_iff.1 h
      exact (ih hd).before [c] fun back => divideFrom?_none_quote hc _
  | case6 cs hc =>
      obtain rfl := Option.some.inj h
      exact ⟨rfl, fun _ => rfl⟩
  | case7 cs hc =>
      obtain rfl := Option.some.inj h
      exact ⟨rfl, fun _ => rfl⟩
  | case8 c cs hequal hnotEqual hc ih =>
      obtain ⟨d, hd, rfl⟩ := Option.map_eq_some_iff.1 h
      have hnext : ∀ back, (d.front ++ (d.comparison.sign ++ back)).head? = some '=' →
          c ≠ '=' ∧ c ≠ '!' := by
        intro back hhead
        rw [head?_append_sign d.front d.comparison back d.back, ← (ih hd).text_eq] at hhead
        obtain ⟨r, hr⟩ := List.head?_eq_some_iff.1 hhead
        exact ⟨fun h => hequal r h hr, fun h => hnotEqual r h hr⟩
      exact (ih hd).before [c] fun back =>
        divideFrom?_none_cons (Bool.eq_false_iff.2 hc) (hnext back)

theorem dividesAt_of_divide? {cs : Text} {d : Divided} (h : divide? cs = some d) :
    DividesAt none cs d := by
  rw [divide?_eq_divideFrom?] at h
  exact dividesAt_of_divideFrom? h

theorem signless_of_isBlank {c : Char} (h : isBlank c = true) :
    isQuote c = false ∧ c ≠ '=' ∧ c ≠ '!' := by
  refine ⟨Bool.eq_false_iff.2 fun hquote => ?_, ?_, ?_⟩
  · simp only [isQuote, Bool.or_eq_true, decide_eq_true_eq] at hquote
    obtain rfl | rfl := hquote
    · exact absurd h (by decide)
    · exact absurd h (by decide)
  · rintro rfl
    exact absurd h (by decide)
  · rintro rfl
    exact absurd h (by decide)

/-- White space around a comparison stays out of its parts. -/
theorem divide?_trim {e : Text} {d : Divided} (h : divide? e = some d) :
    divide? (Text.trim e) =
      some ⟨Text.trimStart d.front, d.comparison, Text.trimEnd d.back⟩ := by
  have he := (dividesAt_of_divide? h).text_eq
  obtain ⟨w, hw, hblank⟩ := Token.append_trimStart d.front
  obtain ⟨c, hsign, hc⟩ : ∃ c, d.comparison.sign = [c, '='] ∧ isBlank c = false := by
    cases d.comparison with
    | equal => exact ⟨'=', rfl, rfl⟩
    | notEqual => exact ⟨'!', rfl, rfl⟩
  have hstops : Text.Stops isBlank (d.comparison.sign ++ d.back) := by
    rw [hsign]
    exact Text.stops_cons.2 hc
  have hstart : divide? (Text.trimStart d.front ++ (d.comparison.sign ++ d.back)) =
      some ⟨Text.trimStart d.front, d.comparison, d.back⟩ := by
    rw [he, hw, List.append_assoc,
      divide?_append fun x hx => signless_of_isBlank (List.all_eq_true.1 hblank x hx)] at h
    obtain ⟨d', hd', hbefore⟩ := Option.map_eq_some_iff.1 h
    obtain ⟨front, sign, back⟩ := d'
    rw [hd']
    rw [Divided.before] at hbefore
    have hfront : w ++ front = w ++ Text.trimStart d.front := by
      rw [← hw, ← hbefore]
    have hsign' : sign = d.comparison := by rw [← hbefore]
    have hback : back = d.back := by rw [← hbefore]
    rw [List.append_cancel_left hfront, hsign', hback]
  have hend : Text.trim e =
      Text.trimStart d.front ++ (d.comparison.sign ++ Text.trimEnd d.back) := by
    rw [Text.trim, he, Text.trimStart_append_of_stops hstops, hsign]
    have hequals : isBlank '=' = false := rfl
    have htrim := Text.trimEnd_append_cons (Text.trimStart d.front ++ [c]) hequals d.back
    rw [List.append_assoc, List.append_assoc] at htrim
    exact htrim
  rw [hend, divide?_eq_divideFrom?]
  exact (dividesAt_of_divide? hstart).divided (Text.trimEnd d.back)

/-- White space around a comparison makes no difference to it. -/
theorem parse_trim {e : Text} {p : Predicate} (h : Predicate.parse e = .ok (some p)) :
    Predicate.parse (Text.trim e) = .ok (some p) := by
  unfold Predicate.parse at h ⊢
  cases hd : divide? e with
  | none => simp [hd] at h
  | some d =>
      simp only [hd] at h
      simp only [divide?_trim hd, Text.trim_trimStart, Text.trim_trimEnd]
      split at h
      · simp at h
      · rename_i hfield
        rw [if_neg hfield]
        exact h

end Dividing

theorem bracketStep_trim (path inner : Text) :
    bracketStep path (Text.trim inner) = bracketStep path inner := by
  rw [bracketStep, Text.trim_trim]
  rfl

theorem ne_nil_of_parse_eq_some {e : Text} {p : Predicate}
    (h : Predicate.parse e = .ok (some p)) : e ≠ [] := by
  rintro rfl
  simp [Predicate.parse, divide?_eq_divideFrom?, divideFrom?] at h

/-- A comparison in brackets is read like one alone, unless it looks like a literal as a whole. -/
theorem bracketStep_of_parse {path e : Text} {p : Predicate}
    (hparse : Predicate.parse e = .ok (some p)) (hliteral : Text.isLiteral (Text.trim e) = false) :
    bracketStep path e = .ok (.predicate p) := by
  have htrim := parse_trim hparse
  have hvalue : Text.literalValue (Text.trim e) = Text.trim e := by
    rw [Text.literalValue, hliteral, if_neg (by simp)]
  rw [← bracketStep_trim]
  exact bracketStep_of_parse_eq_some (ne_nil_of_parse_eq_some htrim) (Text.trim_trim e) hvalue htrim

theorem isWrittenOut_bracket (e : Text) : IsWrittenOut ('[' :: (e ++ [']'])) := by
  refine ⟨List.cons_ne_nil _ _, by simp, Text.trim_eq_self (Text.stops_cons.2 rfl) ?_⟩
  intro c hc
  rw [← List.cons_append, List.getLast?_concat, Option.mem_def, Option.some.injEq] at hc
  rw [← hc]
  rfl

/-- Brackets around a comparison are a path of one step. -/
theorem read_bracket {e : Text} {p : Predicate} (hparse : Predicate.parse e = .ok (some p))
    (hend : bracketEnd? none (e ++ [']']) = some (e, []))
    (hliteral : Text.isLiteral (Text.trim e) = false) :
    Path.read ('[' :: (e ++ [']'])) = .ok [.predicate p] := by
  rw [(isWrittenOut_bracket e).read_eq,
    stepsFrom_bracket true hend (bracketStep_of_parse hparse hliteral), stepsFrom, if_neg (by simp)]
  rfl

/-- A shaping with a filter alone has the comparison that its argument is read as. -/
theorem exists_parse_of_filter {e : Text} {s : Shaping}
    (h : Shaping.ofArguments [("filter".toList, e)] = .ok s) :
    ∃ p, Predicate.parse e = .ok (some p) ∧ s = ⟨some p, none, none⟩ := by
  obtain ⟨s', hs', h⟩ := exists_of_bind_eq_ok h
  obtain rfl := Except.ok.inj h
  change Shaping.none.addArgument "filter".toList e = .ok s' at hs'
  rw [Shaping.addArgument, if_pos rfl] at hs'
  split at hs'
  · rename_i p hparse
    exact ⟨p, hparse, (Except.ok.inj hs').symm⟩
  · simp at hs'

theorem ofArguments_filter {e : Text} {p : Predicate} (h : Predicate.parse e = .ok (some p)) :
    Shaping.ofArguments [("filter".toList, e)] = .ok ⟨some p, none, none⟩ := by
  have hadd : Shaping.none.addArgument "filter".toList e = .ok ⟨some p, none, none⟩ := by
    rw [Shaping.addArgument, if_pos rfl, h]
    rfl
  rw [Shaping.ofArguments, List.foldlM_cons, hadd]
  rfl

/-- Brackets around a comparison lead to the first of the items that a filter with the comparison
keeps, and to nothing exactly if it keeps none; provided the comparison does not begin and end with
the same quote. -/
theorem resolve_bracket_eq_head? (items : List Json) {e : Text} {s : Shaping}
    (hfilter : Shaping.ofArguments [("filter".toList, e)] = .ok s)
    (hend : bracketEnd? none (e ++ [']']) = some (e, []))
    (hliteral : Text.isLiteral (Text.trim e) = false) :
    ∃ kept, s.apply (.array items) = .array kept ∧
      resolve (.array items) ('[' :: (e ++ [']'])) .none = .ok kept.head? ∧
      (resolve (.array items) ('[' :: (e ++ [']'])) .none = .ok none ↔ kept = []) := by
  obtain ⟨p, hparse, rfl⟩ := exists_parse_of_filter hfilter
  have hfollow : Path.follow? (.array items) [.predicate p] = (items.filter p.holds).head? := by
    rw [List.head?_filter]
    exact bind_pure _
  have hresolve : resolve (.array items) ('[' :: (e ++ [']'])) .none =
      .ok (Path.follow? (.array items) [.predicate p]) :=
    resolve_none (read_bracket hparse hend hliteral)
  rw [hfollow] at hresolve
  refine ⟨items.filter p.holds, rfl, hresolve, ?_⟩
  rw [hresolve, Except.ok.injEq, List.head?_eq_none_iff]

/-- A quoted field, white space, and a value with a closing bracket in quotes of the other kind. -/
theorem resolve_bracket_eq_head?_quoted :
    Shaping.ofArguments [("filter".toList, " \"kind\" != 'a]b' ".toList)] =
        .ok ⟨some ⟨"kind".toList, .notEqual, "a]b".toList⟩, none, none⟩ ∧
      bracketEnd? none " \"kind\" != 'a]b' ]".toList = some (" \"kind\" != 'a]b' ".toList, []) ∧
      Text.isLiteral (Text.trim " \"kind\" != 'a]b' ".toList) = false ∧
      resolve (.array [.object [("kind".toList, .string "a]b".toList)], .bool true])
        "[ \"kind\" != 'a]b' ]".toList .none = .ok (some (.bool true)) := by
  have hfilter : Shaping.ofArguments [("filter".toList, " \"kind\" != 'a]b' ".toList)] =
      .ok ⟨some ⟨"kind".toList, .notEqual, "a]b".toList⟩, none, none⟩ := by
    apply ofArguments_filter
    exact eq_ok_of_toOption (by decide +kernel)
  have hend : bracketEnd? none " \"kind\" != 'a]b' ]".toList =
      some (" \"kind\" != 'a]b' ".toList, []) := by
    decide +kernel
  have hliteral : Text.isLiteral (Text.trim " \"kind\" != 'a]b' ".toList) = false := by decide
  obtain ⟨kept, hkept, hresolve, -⟩ := resolve_bracket_eq_head?
    [.object [("kind".toList, .string "a]b".toList)], .bool true] hfilter hend hliteral
  refine ⟨hfilter, hend, hliteral, hresolve.trans ?_⟩
  obtain rfl := Json.array.inj hkept
  rfl

/-- Quotes at both ends hide the sign between them: the brackets hold a key, and the filter a
comparison. -/
theorem not_resolve_bracket_eq_head? :
    ¬ ∀ (items : List Json) (e : Text) (s : Shaping),
      Shaping.ofArguments [("filter".toList, e)] = .ok s →
      bracketEnd? none (e ++ [']']) = some (e, []) →
      resolve (.array items) ('[' :: (e ++ [']'])) .none = .ok (s.applyItems items).head? := by
  intro h
  have hsame := h [.object [("a".toList, .string "b".toList)]] "'a'=='b'".toList
    ⟨some ⟨"a".toList, .equal, "b".toList⟩, none, none⟩
      (ofArguments_filter (eq_ok_of_toOption (by decide +kernel)))
    (by decide +kernel)
  have hread : Path.read ('[' :: ("'a'=='b'".toList ++ [']'])) = .ok [.key "a'=='b".toList] :=
    eq_ok_of_toOption (by decide +kernel)
  rw [resolve_none hread, Except.ok.injEq] at hsame
  change none = some (Json.object [("a".toList, .string "b".toList)]) at hsame
  exact absurd hsame (by simp)

end MustachePath
