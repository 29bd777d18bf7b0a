import MustachePath.Mustache.Expression

/-!
# Paths that the template language understands by itself

A native path is a name followed by further names and plain bracketed keys, each after a dot. A
bracketed key is a run of decimal digits, or a quoted text without characters of a comparison.
-/

namespace MustachePath

/-- The characters that a quoted key may hold besides its quote: all but those of a comparison. -/
def isPlainKeyChar (c : Char) : Bool := c ≠ '=' && c ≠ '<' && c ≠ '>' && c ≠ '!'

namespace Token

/-- The rest of brackets around a quoted key, after the quote that opens the key. -/
def readKeyEnd? (quote : Char) : Reader
  | [] => none
  | c :: cs =>
    if c = quote then
      match cs with
      | ']' :: r => some ([quote, ']'], r)
      | _ => none
    else if isPlainKeyChar c then (readKeyEnd? quote cs).map (before [c])
    else none

/-- The rest of brackets around decimal digits, after the opening bracket. -/
def readDigitsEnd? : Reader := fun cs =>
  match readWhile? isDecimalDigit cs with
  | some (digits, ']' :: r) => some (digits ++ [']'], r)
  | _ => none

/-- Brackets around a plain key. -/
def readNativeBracket? : Reader
  | '[' :: '"' :: cs => (readKeyEnd? '"' cs).map (before ['[', '"'])
  | '[' :: '\'' :: cs => (readKeyEnd? '\'' cs).map (before ['[', '\''])
  | '[' :: cs => (readDigitsEnd? cs).map (before ['['])
  | _ => none

/-- A further step of a native path: a dot before a name or before brackets with a plain key. -/
def readNativeStep? : Reader
  | '.' :: cs => ((readName? cs).or (readNativeBracket? cs)).map (before ['.'])
  | _ => none

theorem readKeyEnd?_eq_some {q : Char} {cs a r : Text}
    (h : readKeyEnd? q cs = some (a, r)) : cs = a ++ r ∧ a ≠ [] := by
  induction cs generalizing a with
  | nil => simp [readKeyEnd?] at h
  | cons c cs ih =>
    simp only [readKeyEnd?] at h
    split at h
    · rename_i hc
      split at h
      · simp only [Option.some.injEq, Prod.mk.injEq] at h
        obtain ⟨rfl, rfl⟩ := h
        simp [hc]
      · simp at h
    · split at h
      · simp only [Option.map_eq_some_iff, before, Prod.mk.injEq, Prod.exists] at h
        obtain ⟨b, s, hb, rfl, rfl⟩ := h
        simp [(ih hb).1]
      · simp at h

theorem readDigitsEnd?_eq_some {cs a r : Text}
    (h : readDigitsEnd? cs = some (a, r)) : cs = a ++ r ∧ a ≠ [] := by
  unfold readDigitsEnd? at h
  split at h
  · rename_i digits s hd
    simp only [Option.some.injEq, Prod.mk.injEq] at h
    obtain ⟨rfl, rfl⟩ := h
    simp [(readWhile?_eq_some hd).1]
  · simp at h

theorem readNativeBracket?_eq_some {cs a r : Text}
    (h : readNativeBracket? cs = some (a, r)) : cs = a ++ r ∧ a ≠ [] := by
  unfold readNativeBracket? at h
  split at h
  · simp only [Option.map_eq_some_iff, before, Prod.mk.injEq, Prod.exists] at h
    obtain ⟨b, s, hb, rfl, rfl⟩ := h
    simp [(readKeyEnd?_eq_some hb).1]
  · simp only [Option.map_eq_some_iff, before, Prod.mk.injEq, Prod.exists] at h
    obtain ⟨b, s, hb, rfl, rfl⟩ := h
    simp [(readKeyEnd?_eq_some hb).1]
  · simp only [Option.map_eq_some_iff, before, Prod.mk.injEq, Prod.exists] at h
    obtain ⟨b, s, hb, rfl, rfl⟩ := h
    simp [(readDigitsEnd?_eq_some hb).1]
  · simp at h

theorem readNativeStep?_eq_some {cs a r : Text}
    (h : readNativeStep? cs = some (a, r)) : cs = a ++ r ∧ a ≠ [] := by
  unfold readNativeStep? at h
  split at h
  · simp only [Option.map_eq_some_iff, before, Prod.mk.injEq, Prod.exists,
      Option.or_eq_some_iff] at h
    obtain ⟨b, s, hb, rfl, rfl⟩ := h
    rcases hb with hb | ⟨_, hb⟩
    · simp [(readWhile?_eq_some hb).1]
    · simp [(readNativeBracket?_eq_some hb).1]
  · simp at h

/-- Whether a text consists of further steps of a native path. -/
def isNativeSteps (cs : Text) : Bool :=
  match _h : readNativeStep? cs with
  | some (_, r) => isNativeSteps r
  | none => cs.isEmpty
termination_by cs.length
decreasing_by
  obtain ⟨rfl, ha⟩ := readNativeStep?_eq_some _h
  have := List.length_pos_iff.2 ha
  simp only [List.length_append]
  omega

end Token

/-- Whether a path names the current context. -/
def isContextPath (path : Text) : Bool := path = contextWord || path = ['.']

/-- Whether the template language understands a path by itself. -/
def isNative (path : Text) : Bool :=
  isContextPath path ||
    match Token.readName? path with
    | some (_, r) => Token.isNativeSteps r
    | none => false

end MustachePath
