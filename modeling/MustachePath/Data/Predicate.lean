import MustachePath.Json.Writer
import MustachePath.Text.Bytes
import MustachePath.Text.Literal

/-!
# Comparisons with a field of an item

A comparison is a field, one of the signs `==` and `!=`, and a value. The sign is looked for outside
of quotes, among the bytes of the text. The field may be a path of keys through objects, and what it
leads to is compared as text.
-/

namespace MustachePath

/-- Why a path or a comparison cannot be read. -/
inductive PathError where
  | unclosedBracket (path : Text)
  | emptySegment (path : Text)
  | invalidIndex (text : Text)
  | invalidPredicate (expression : Text)
deriving DecidableEq, Repr

/-- The wording of an error. -/
def PathError.message : PathError → Text
  | .unclosedBracket path => "unclosed '[' in path: ".toList ++ path
  | .emptySegment path => "empty segment in path: ".toList ++ path
  | .invalidIndex text => "invalid array index: ".toList ++ text
  | .invalidPredicate expression => "invalid predicate: ".toList ++ expression

/-- The signs of comparison. -/
inductive Comparison where
  | equal
  | notEqual
deriving DecidableEq, Repr

/-- A comparison of a field with a value. -/
structure Predicate where
  field : Text
  comparison : Comparison
  value : Text
deriving DecidableEq, Repr

/-- A text divided at a sign of comparison. -/
structure Divided where
  front : Text
  comparison : Comparison
  back : Text
deriving DecidableEq, Repr

namespace Divided

/-- Puts a text before the sign. -/
def before (s : Text) (d : Divided) : Divided := { d with front := s ++ d.front }

end Divided

/-- Whether a character is a quote. -/
def isQuote (c : Char) : Bool := c = '"' || c = '\''

/-- Whether a byte is a quote. -/
def isQuoteByte (b : UInt8) : Bool := b = '"'.toUInt8 || b = '\''.toUInt8

/-- The place and the sign of the first comparison outside of quotes, among bytes that begin at the
given place and inside the given quote, if there is one. Inside a quote a backslash hides the next
byte. -/
def signFrom? (place : Nat) : Option UInt8 → List UInt8 → Option (Nat × Comparison)
  | _, [] => none
  | some quote, b :: bs =>
    if b = '\\'.toUInt8 then
      match bs with
      | [] => none
      | _ :: bs => signFrom? (place + 2) (some quote) bs
    else signFrom? (place + 1) (if b = quote then none else some quote) bs
  | none, b :: bs =>
    if isQuoteByte b then signFrom? (place + 1) (some b) bs
    else if (b = '='.toUInt8 ∨ b = '!'.toUInt8) ∧ bs.head? = some '='.toUInt8 then
      some (place, if b = '='.toUInt8 then .equal else .notEqual)
    else signFrom? (place + 1) none bs

theorem signFrom?_some_cons {b : UInt8} (hb : b ≠ '\\'.toUInt8) (place : Nat) (quote : UInt8)
    (bs : List UInt8) : signFrom? place (some quote) (b :: bs) =
      signFrom? (place + 1) (if b = quote then none else some quote) bs := by
  rw [signFrom?.eq_def]
  exact if_neg hb

theorem signFrom?_none_cons (place : Nat) (b : UInt8) (bs : List UInt8) :
    signFrom? place none (b :: bs) =
      if isQuoteByte b then signFrom? (place + 1) (some b) bs
      else if (b = '='.toUInt8 ∨ b = '!'.toUInt8) ∧ bs.head? = some '='.toUInt8 then
        some (place, if b = '='.toUInt8 then .equal else .notEqual)
      else signFrom? (place + 1) none bs := by
  rw [signFrom?.eq_def]

/-- The place in bytes and the sign of the first comparison of a text outside of quotes. -/
def findSign? (cs : Text) : Option (Nat × Comparison) := signFrom? 0 none (Text.bytes cs)

/-- Divides a text at the first sign of comparison outside of quotes. The two parts are cut out by
their places in bytes. -/
def divide? (cs : Text) : Option Divided := do
  let (place, sign) ← findSign? cs
  let (front, _) ← Text.splitAtByte? place cs
  let (_, back) ← Text.splitAtByte? (place + 2) cs
  return ⟨front, sign, back⟩

/-- The text that a value is compared by: a string is itself, and any other value is written. -/
def Json.text : Json → Text
  | .string t => t
  | v => v.write

namespace Predicate

/-- Reads a comparison. A text without a sign is none, and without a field it is an error. -/
def parse (expression : Text) : Except PathError (Option Predicate) :=
  match divide? expression with
  | none => .ok none
  | some d =>
    let field := Text.literalValue (Text.trim d.front)
    if field = [] then .error (.invalidPredicate expression)
    else .ok (some ⟨field, d.comparison, Text.literalValue (Text.trim d.back)⟩)

/-- The value of a field whose keys are separated by dots. -/
def lookup (item : Json) (field : Text) : Option Json := item.field? (field.splitOn '.')

/-- Whether an item fulfils a comparison. An item without the field differs from every value. -/
def holds (p : Predicate) (item : Json) : Bool :=
  match p.comparison, (lookup item p.field).map Json.text with
  | .equal, actual => actual == some p.value
  | .notEqual, actual => actual != some p.value

end Predicate

end MustachePath
