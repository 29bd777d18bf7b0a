import MustachePath.Proofs.JoinedPaths
import MustachePath.Proofs.SpelledPaths

/-!
# Steps to a number

A number after a path is an index between brackets, and a key after a dot or in quotes. An index is
printed to look it up in an object, and a key is read as a number to look it up in an array. As a
number of 64 bits is read back from its digits, both lead to the same value (`follow?_key_ofNat`),
whatever the path before them leads to (`resolve_number`).
-/

namespace MustachePath

theorem unsigned64?_ofNat {n : Nat} (h : n < Nat.pow 2 64) :
    Text.unsigned64? (Text.ofNat n) = some n := by
  unfold Text.unsigned64?
  split
  · rename_i cs hplus
    have hdigit := isDigit_ofNat (n := n) (c := '+') (by simp [hplus])
    exact absurd hdigit (by decide)
  · exact digits64?_ofNat h

/-- The value under a number: an item of an array, or the member of an object whose key is the
digits of the number. -/
def Json.atNumber? (n : Nat) : Json → Option Json
  | .array items => items[n]?
  | .object members => (Json.object members).member? (Text.ofNat n)
  | _ => none

theorem follow?_index (value : Json) (n : Nat) :
    Step.follow? value (.index n) = value.atNumber? n := by
  cases value <;> rfl

/-- The digits of a number as a key lead to the value under the number. -/
theorem follow?_key_ofNat (value : Json) {n : Nat} (h : n < Nat.pow 2 64) :
    Step.follow? value (.key (Text.ofNat n)) = value.atNumber? n := by
  cases value with
  | array items => rw [Step.follow?, unsigned64?_ofNat h, Option.bind_some, Json.atNumber?]
  | object members => rfl
  | _ => rfl

/-- The forms of a step to a number: between brackets, after a dot, and in quotes between
brackets. -/
inductive NumberForm where
  | bracketed
  | dotted
  | quoted

namespace NumberForm

/-- A step to a number as it is written. -/
def text (n : Nat) : NumberForm → Text
  | bracketed => '[' :: (Text.ofNat n ++ [']'])
  | dotted => '.' :: Text.ofNat n
  | quoted => '[' :: '\'' :: (Text.ofNat n ++ ['\'', ']'])

variable {n : Nat}

/-- The digits of a number as a key. -/
def bareKey (n : Nat) : BareKey where
  text := Text.ofNat n
  ne_nil := Nat.toDigits_ne_nil
  trim_text := trim_ofNat n
  bare _ hc := isBareKeyChar_of_isNameChar (isNameChar_of_isDigit (isDigit_ofNat hc))

/-- The spelled step. -/
def spelling (h : n < Nat.pow 2 64) : NumberForm → Spelling
  | bracketed => .bracketed (.index n h)
  | dotted => .bare (bareKey n)
  | quoted => .bracketed (.key .single (Text.ofNat n) (divide?_eq_none (signless_ofNat n)))

/-- Nothing is escaped in a text without backslashes and quotes. -/
theorem escape_eq_self {q : Quote} {t : Text} (h : ∀ c ∈ t, ¬ (c = '\\' ∨ c = q.char)) :
    q.escape t = t := by
  induction t with
  | nil => rfl
  | cons c t ih =>
      rw [escape_cons_of_plain q (h c (by simp)), ih fun d hd => h d (List.mem_cons_of_mem c hd)]

theorem escape_ofNat (q : Quote) (n : Nat) : q.escape (Text.ofNat n) = Text.ofNat n := by
  apply escape_eq_self
  intro c hc
  obtain ⟨hdouble, hsingle, -, -, -, -, hslash⟩ := (inert_ofNat n).excludes hc
  cases q with
  | double => exact not_or.2 ⟨hslash, hdouble⟩
  | single => exact not_or.2 ⟨hslash, hsingle⟩

theorem furtherText_spelling (h : n < Nat.pow 2 64) (form : NumberForm) :
    (form.spelling h).furtherText false = form.text n := by
  cases form with
  | bracketed => rfl
  | dotted => rfl
  | quoted =>
      simp [spelling, Spelling.furtherText, Bracketed.text, Quote.spell, Quote.enclose, Quote.char,
        escape_ofNat, text]

theorem follow?_spelling (h : n < Nat.pow 2 64) (form : NumberForm) (value : Json) :
    Step.follow? value (form.spelling h).step = value.atNumber? n := by
  cases form with
  | bracketed => exact follow?_index value n
  | dotted => exact follow?_key_ofNat value h
  | quoted => exact follow?_key_ofNat value h

end NumberForm

/-- A path with one more step after it is read as its steps and then that one. -/
theorem IsWrittenOut.read_append_furtherText {p : Text} {steps : Path} (hp : IsWrittenOut p)
    (hread : Path.read p = .ok steps) (s : Spelling) (dotted : Bool) :
    Path.read (p ++ s.furtherText dotted) = .ok (steps ++ [s.step]) := by
  obtain ⟨written, hwritten, hne, rfl⟩ := hp.exists_stepsFrom hread
  obtain ⟨w, hw⟩ := s.exists_furtherText_eq_append dotted
  have hlong : IsWrittenOut (p ++ s.furtherText dotted) := by
    apply hp.append
    · rw [hw]
      exact List.append_ne_nil_of_right_ne_nil w s.text_ne_nil
    · rw [hw, Text.getLast?_append_of_ne_nil s.text_ne_nil]
      exact s.getLast?_text
  have hstops := s.stops_furtherText dotted []
  have hstep : ∀ path, stepsFrom path false (s.furtherText dotted) = .ok [s.step] := by
    intro path
    have hfurther : stepsFrom path false (s.furtherText dotted ++ []) =
        (stepsFrom path false []).map (s.step :: ·) :=
      s.stepsFrom_furtherText dotted (Text.stops_nil _)
    rw [List.append_nil] at hfurther
    rw [hfurther, stepsFrom, if_neg (by simp)]
    rfl
  rw [List.append_nil] at hstops
  rw [hlong.read_eq, stepsFrom_append hwritten hstops, hstep]
  exact congrArg Except.ok (dropContext_append hne [s.step])

/-- A number after a path leads to the value under the number in what the path leads to, in each of
its forms. -/
theorem resolve_number {p : Text} {steps : Path} {n : Nat} (hp : IsWrittenOut p)
    (hread : Path.read p = .ok steps) (hn : n < Nat.pow 2 64) (context : Json) (s : Shaping) :
    (∀ form other : NumberForm, resolve context (p ++ form.text n) s =
      resolve context (p ++ other.text n) s) ∧
    ∀ form : NumberForm, resolve context (p ++ form.text n) s =
      .ok (((Path.follow? context steps).bind (Json.atNumber? n)).map s.apply) := by
  have hresolve : ∀ form : NumberForm, resolve context (p ++ form.text n) s =
      .ok (((Path.follow? context steps).bind (Json.atNumber? n)).map s.apply) := by
    intro form
    have hlong := hp.read_append_furtherText hread (form.spelling hn) false
    have hstep : ∀ value, Path.follow? value [(form.spelling hn).step] = value.atNumber? n :=
      fun value => (bind_pure _).trans (form.follow?_spelling hn value)
    rw [form.furtherText_spelling hn] at hlong
    rw [resolve, hlong, Except.map, follow?_append, funext hstep]
  refine ⟨fun form other => ?_, hresolve⟩
  rw [hresolve form, hresolve other]

/-- The largest number of 64 bits after `this.rows['a].b']`, which leads to an object with this
number among its keys. -/
theorem resolve_number_largest :
    IsWrittenOut "this.rows['a].b']".toList ∧
      Path.read "this.rows['a].b']".toList = .ok [.key "rows".toList, .key "a].b".toList] ∧
      18446744073709551615 < Nat.pow 2 64 ∧
      ∀ form : NumberForm, resolve (.object [("rows".toList, .object [("a].b".toList,
          .object [("18446744073709551615".toList, .bool true)])])])
        ("this.rows['a].b']".toList ++ form.text 18446744073709551615) .none =
          .ok (some (.bool true)) := by
  have hp : IsWrittenOut "this.rows['a].b']".toList := ⟨by decide, by decide, by decide⟩
  have hread : Path.read "this.rows['a].b']".toList =
      .ok [.key "rows".toList, .key "a].b".toList] := eq_ok_of_toOption (by decide +kernel)
  have hn : 18446744073709551615 < Nat.pow 2 64 := by decide
  have hdigits : Text.ofNat 18446744073709551615 = "18446744073709551615".toList := by
    decide +kernel
  refine ⟨hp, hread, hn, fun form => ?_⟩
  rw [(resolve_number hp hread hn _ .none).2 form]
  have hfollow : Path.follow? (.object [("rows".toList, .object [("a].b".toList,
      .object [("18446744073709551615".toList, .bool true)])])])
      [.key "rows".toList, .key "a].b".toList] =
        some (.object [("18446744073709551615".toList, .bool true)]) := rfl
  rw [hfollow, Option.bind_some, Json.atNumber?, hdigits]
  rfl

end MustachePath
