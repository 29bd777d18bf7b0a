/-!
# Text as a list of characters

Templates, tokens, paths and option values are lists of characters. Places in a text are
counted in UTF-8 bytes, so a text has a byte length and can be cut at a byte offset, but only
where a character begins. `splitAtByte?_eq_some_iff` says that a cut loses nothing and that the
first part has the asked length.
-/

namespace MustachePath

/-- A text is the list of its characters. -/
abbrev Text := List Char

/-- Unicode white space. -/
def isBlank (c : Char) : Bool :=
  let n := c.toNat
  (9 ≤ n && n ≤ 13) || n == 0x20 || n == 0x85 || n == 0xA0 || n == 0x1680 ||
    (0x2000 ≤ n && n ≤ 0x200A) || n == 0x2028 || n == 0x2029 || n == 0x202F ||
    n == 0x205F || n == 0x3000

namespace Text

/-- The number of bytes of a text in UTF-8. -/
def byteLength : Text → Nat
  | [] => 0
  | c :: cs => c.utf8Size + byteLength cs

@[simp] theorem byteLength_nil : byteLength [] = 0 := rfl

@[simp] theorem byteLength_cons (c : Char) (cs : Text) :
    byteLength (c :: cs) = c.utf8Size + byteLength cs := rfl

@[simp] theorem byteLength_append (s t : Text) :
    byteLength (s ++ t) = byteLength s + byteLength t := by
  induction s with
  | nil => simp
  | cons c cs ih => simp [ih, Nat.add_assoc]

/-- Cuts a text after a number of bytes, unless that falls inside a character or beyond the end. -/
def splitAtByte? : Nat → Text → Option (Text × Text)
  | 0, cs => some ([], cs)
  | _ + 1, [] => none
  | n + 1, c :: cs =>
    if c.utf8Size ≤ n + 1 then
      (splitAtByte? (n + 1 - c.utf8Size) cs).map fun p => (c :: p.1, p.2)
    else none

/-- The cut after `n` bytes is the one division of the text whose first part has `n` bytes. -/
theorem splitAtByte?_eq_some_iff {n : Nat} {cs s t : Text} :
    splitAtByte? n cs = some (s, t) ↔ cs = s ++ t ∧ byteLength s = n := by
  induction cs generalizing n s with
  | nil =>
    cases n <;> cases s <;> simp [splitAtByte?, eq_comm]
  | cons c cs ih =>
    have hc := c.utf8Size_pos
    cases n with
    | zero =>
      cases s with
      | nil => simp [splitAtByte?, eq_comm]
      | cons d s =>
        have hd := d.utf8Size_pos
        simp [splitAtByte?]
        omega
    | succ n =>
      simp only [splitAtByte?]
      split
      · rename_i h
        simp only [Option.map_eq_some_iff, Prod.exists, Prod.mk.injEq]
        constructor
        · rintro ⟨a, b, hab, rfl, rfl⟩
          obtain ⟨rfl, ha⟩ := ih.1 hab
          exact ⟨rfl, by simp [ha]; omega⟩
        · rintro ⟨heq, hs⟩
          cases s with
          | nil => simp at hs
          | cons d s =>
            simp only [List.cons_append, List.cons.injEq] at heq
            obtain ⟨rfl, rfl⟩ := heq
            exact ⟨s, t, ih.2 ⟨rfl, by simp at hs; omega⟩, rfl, rfl⟩
      · rename_i h
        simp only [reduceCtorEq, false_iff, not_and]
        intro heq hs
        cases s with
        | nil => simp at hs
        | cons d s =>
          simp only [List.cons_append, List.cons.injEq] at heq
          obtain ⟨rfl, rfl⟩ := heq
          simp at hs
          omega

/-- The part of a text between two byte offsets, if characters begin at both. -/
def slice? (start stop : Nat) (cs : Text) : Option Text :=
  (splitAtByte? stop cs).bind fun upTo => (splitAtByte? start upTo.1).map Prod.snd

theorem slice?_append (a b c : Text) :
    slice? (byteLength a) (byteLength a + byteLength b) (a ++ b ++ c) = some b := by
  have hstop : splitAtByte? (byteLength a + byteLength b) (a ++ b ++ c) = some (a ++ b, c) :=
    splitAtByte?_eq_some_iff.2 ⟨rfl, by simp⟩
  have hstart : splitAtByte? (byteLength a) (a ++ b) = some (a, b) :=
    splitAtByte?_eq_some_iff.2 ⟨rfl, rfl⟩
  rw [slice?, hstop, Option.bind_some, hstart]
  rfl

/-- Drops white space at the front. -/
def trimStart (cs : Text) : Text := cs.dropWhile isBlank

/-- Drops white space at the end. -/
def trimEnd (cs : Text) : Text := (cs.reverse.dropWhile isBlank).reverse

/-- Drops white space at both ends. -/
def trim (cs : Text) : Text := trimEnd (trimStart cs)

/-- What follows a given beginning, if the text has it. -/
def afterPrefix? : Text → Text → Option Text
  | [], cs => some cs
  | _ :: _, [] => none
  | p :: ps, c :: cs => if p = c then afterPrefix? ps cs else none

theorem afterPrefix?_eq_some_iff {p cs r : Text} :
    afterPrefix? p cs = some r ↔ cs = p ++ r := by
  induction p generalizing cs with
  | nil => simp [afterPrefix?]
  | cons a p ih =>
    cases cs with
    | nil => simp [afterPrefix?]
    | cons c cs =>
      by_cases h : a = c
      · simp [afterPrefix?, h, ih]
      · simp [afterPrefix?, h, Ne.symm h]

/-- Whether a text begins with another. -/
def startsWith (p cs : Text) : Bool := (afterPrefix? p cs).isSome

/-- The order of texts by their characters' code points, which is also the order of their bytes. -/
def compare : Text → Text → Ordering
  | [], [] => .eq
  | [], _ :: _ => .lt
  | _ :: _, [] => .gt
  | a :: as, b :: bs =>
    if a.toNat < b.toNat then .lt else if b.toNat < a.toNat then .gt else compare as bs

/-- Adds a text to an ascending list without repetitions, at its place. -/
def insertSorted (t : Text) : List Text → List Text
  | [] => [t]
  | u :: us =>
    match compare t u with
    | .lt => t :: u :: us
    | .eq => u :: us
    | .gt => u :: insertSorted t us

/-- The texts of a list in ascending order, each once. -/
def sortedSet (ts : List Text) : List Text := ts.foldr insertSorted []

/-- Texts one after another with a text between them. -/
def joinWith (sep : Text) : List Text → Text
  | [] => []
  | [t] => t
  | t :: u :: us => t ++ sep ++ joinWith sep (u :: us)

/-- Texts one after another with single spaces between them. -/
def joinSpaced (ts : List Text) : Text := joinWith [' '] ts

/-- The decimal digits of a number. -/
def ofNat (n : Nat) : Text := Nat.toDigits 10 n

/-- The value of a decimal digit of ASCII. -/
def digitValue (c : Char) : Nat := c.toNat - '0'.toNat

/-- Whether a character is a decimal digit of ASCII. -/
def isAsciiDigit (c : Char) : Bool := '0'.toNat ≤ c.toNat && c.toNat ≤ '9'.toNat

/-- The number that decimal digits write. -/
def decimalValue (cs : Text) : Nat := cs.foldl (fun n c => 10 * n + digitValue c) 0

/-- Reads decimal digits of ASCII, one at least, as a number of 64 bits without sign. -/
def digits64? (cs : Text) : Option Nat :=
  if cs ≠ [] ∧ cs.all isAsciiDigit ∧ decimalValue cs < Nat.pow 2 64 then some (decimalValue cs)
  else none

/-- Reads a number of 64 bits without sign, before which a plus sign may stand. -/
def unsigned64? : Text → Option Nat
  | '+' :: cs => digits64? cs
  | cs => digits64? cs

end Text

end MustachePath
