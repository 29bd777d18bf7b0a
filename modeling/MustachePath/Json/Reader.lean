import MustachePath.Json.Value

/-!
# Reading JSON

A text is divided into lexemes, which are then put together with a stack of the containers that
are still open. Decimals are read as an integer of 64 bits that is scaled by powers of ten, each
step rounded; digits that do not fit only count as places.
-/

namespace MustachePath.Json

/-- The smallest units of a JSON text. -/
inductive Lexeme where
  | openArray
  | closeArray
  | openObject
  | closeObject
  | comma
  | colon
  | string (text : Text)
  | scalar (value : Json)

/-- The value of a hexadecimal digit. -/
def hexDigit? (c : Char) : Option Nat :=
  let n := c.toNat
  if '0'.toNat ≤ n ∧ n ≤ '9'.toNat then some (n - '0'.toNat)
  else if 'a'.toNat ≤ n ∧ n ≤ 'f'.toNat then some (n - 'a'.toNat + 10)
  else if 'A'.toNat ≤ n ∧ n ≤ 'F'.toNat then some (n - 'A'.toNat + 10)
  else none

/-- The number that hexadecimal digits write. -/
def hexValue? (cs : Text) : Option Nat :=
  cs.foldlM (fun n c => (hexDigit? c).map fun d => 16 * n + d) 0

/-- The character that a backslash and a letter stand for. -/
def escaped? : Char → Option Char
  | '"' => some '"'
  | '\\' => some '\\'
  | '/' => some '/'
  | 'b' => some (Char.ofNat 8)
  | 'f' => some (Char.ofNat 12)
  | 'n' => some '\n'
  | 'r' => some '\r'
  | 't' => some '\t'
  | _ => none

/-- Whether a number is the first of a pair of surrogates. -/
def isHighSurrogate (n : Nat) : Bool := 0xD800 ≤ n && n < 0xDC00

/-- Whether a number is the second of a pair of surrogates. -/
def isLowSurrogate (n : Nat) : Bool := 0xDC00 ≤ n && n < 0xE000

/-- The rest of a string after its opening quote, and what comes after the string. Surrogates must
come in pairs. -/
def readString? : Text → Option (Text × Text)
  | [] => none
  | '"' :: cs => some ([], cs)
  | '\\' :: 'u' :: a :: b :: c :: d :: cs =>
    (hexValue? [a, b, c, d]).bind fun n =>
      if isLowSurrogate n then none
      else if isHighSurrogate n then
        match cs with
        | '\\' :: 'u' :: e :: f :: g :: h :: cs =>
          (hexValue? [e, f, g, h]).bind fun m =>
            if isLowSurrogate m then
              (readString? cs).map fun p =>
                (Char.ofNat (0x10000 + (n - 0xD800) * 0x400 + (m - 0xDC00)) :: p.1, p.2)
            else none
        | _ => none
      else (readString? cs).map fun p => (Char.ofNat n :: p.1, p.2)
  | '\\' :: c :: cs =>
    (escaped? c).bind fun d => (readString? cs).map fun p => (d :: p.1, p.2)
  | c :: cs =>
    if c = '\\' ∨ c.toNat < 0x20 then none else (readString? cs).map fun p => (c :: p.1, p.2)

/-- Takes decimal digits into a number as long as it stays below `2 ^ 64`, and counts them. -/
def takeDigits (n : Nat) : Text → Nat × Nat
  | [] => (n, 0)
  | c :: cs =>
    let next := 10 * n + Text.digitValue c
    if next < Nat.pow 2 64 then
      let p := takeDigits next cs
      (p.1, p.2 + 1)
    else (n, 0)

/-- The floating-point number nearest to a power of ten. -/
def powerOfTen (n : Nat) : Binary64 :=
  (Binary64.ofQuotient? false (Nat.pow 10 n) 1).getD (.zero false)

/-- Scales a number by a power of ten, in steps of at most 308 places. -/
def scale? (x : Binary64) (exponent : Int) : Option Binary64 :=
  if exponent.natAbs ≤ 308 then
    if 0 ≤ exponent then x.mul? (powerOfTen exponent.natAbs)
    else x.div? (powerOfTen exponent.natAbs)
  else if x.isZero then some x
  else if 0 ≤ exponent then none
  else (x.div? (powerOfTen 308)).bind fun y => scale? y (exponent + 308)
termination_by exponent.natAbs

/-- Decimal digits at the front of a text, one at least, and what comes after them. -/
def readDigits? (cs : Text) : Option (Text × Text) :=
  let digits := cs.takeWhile Text.isAsciiDigit
  if digits = [] then none else some (digits, cs.dropWhile Text.isAsciiDigit)

/-- The digits after a decimal point, if there is one, and what comes after them. -/
def readFraction? : Text → Option (Option Text × Text)
  | '.' :: cs => (readDigits? cs).map fun p => (some p.1, p.2)
  | cs => some (none, cs)

/-- The sign and the digits of an exponent, if there is one, and what comes after them. -/
def readExponent? : Text → Option (Option (Bool × Text) × Text)
  | [] => some (none, [])
  | c :: cs =>
    if c = 'e' ∨ c = 'E' then
      match cs with
      | '-' :: cs => (readDigits? cs).map fun p => (some (true, p.1), p.2)
      | '+' :: cs => (readDigits? cs).map fun p => (some (false, p.1), p.2)
      | cs => (readDigits? cs).map fun p => (some (false, p.1), p.2)
    else some (none, c :: cs)

/-- The number that an integer part, a fraction and an exponent write. Too large numbers are
refused; an exponent beyond 31 bits makes a small number or a zero zero. -/
def decimalNumber? (negative : Bool) (whole fraction : Text) (exponent : Bool × Text) :
    Option Number :=
  let front := takeDigits 0 whole
  let all := takeDigits front.1 fraction
  let places : Int := (whole.length : Int) - front.2 - all.2
  let exponentValue := Text.decimalValue exponent.2
  if exponentValue < Nat.pow 2 31 then
    let power : Int := if exponent.1 then places - exponentValue else places + exponentValue
    (scale? (.ofInt all.1) power).map fun x => .float (x.withSign negative)
  else if exponent.1 || all.1 == 0 then some (.float (.zero negative))
  else none

/-- The number that an integer part alone writes. Integers that do not fit 64 bits, and negative
zero, are floating-point numbers. -/
def integerNumber? (negative : Bool) (whole : Text) : Option Number :=
  let n := Text.decimalValue whole
  if negative then
    if 0 < n ∧ n ≤ Nat.pow 2 63 then some (.integer (-(n : Int)))
    else decimalNumber? true whole [] (false, [])
  else if n < Nat.pow 2 64 then some (.integer n)
  else decimalNumber? false whole [] (false, [])

/-- A number without its sign at the front of a text, and what comes after it. -/
def readUnsigned? (negative : Bool) (cs : Text) : Option (Number × Text) := do
  let (whole, cs) ← readDigits? cs
  if whole.head? = some '0' ∧ whole.length ≠ 1 then none
  let (fraction, cs) ← readFraction? cs
  let (exponent, cs) ← readExponent? cs
  let number ←
    if fraction.isNone && exponent.isNone then integerNumber? negative whole
    else decimalNumber? negative whole (fraction.getD []) (exponent.getD (false, []))
  return (number, cs)

/-- A number at the front of a text, and what comes after it. -/
def readNumber? : Text → Option (Number × Text)
  | '-' :: cs => readUnsigned? true cs
  | cs => readUnsigned? false cs

/-- White space between lexemes. -/
def isSpace (c : Char) : Bool := c == ' ' || c == '\n' || c == '\t' || c == '\r'

/-- The lexeme at the front of a text that begins with no white space, and what comes after it. -/
def readLexeme? : Text → Option (Lexeme × Text)
  | '[' :: cs => some (.openArray, cs)
  | ']' :: cs => some (.closeArray, cs)
  | '{' :: cs => some (.openObject, cs)
  | '}' :: cs => some (.closeObject, cs)
  | ',' :: cs => some (.comma, cs)
  | ':' :: cs => some (.colon, cs)
  | '"' :: cs => (readString? cs).map fun p => (.string p.1, p.2)
  | 'n' :: 'u' :: 'l' :: 'l' :: cs => some (.scalar .null, cs)
  | 't' :: 'r' :: 'u' :: 'e' :: cs => some (.scalar (.bool true), cs)
  | 'f' :: 'a' :: 'l' :: 's' :: 'e' :: cs => some (.scalar (.bool false), cs)
  | cs => (readNumber? cs).map fun p => (.scalar (.number p.1), p.2)

/-- The lexemes of a text. -/
def lexemes? (cs : Text) : Option (List Lexeme) :=
  match cs.dropWhile isSpace with
  | [] => some []
  | c :: rest =>
    match readLexeme? (c :: rest) with
    | none => none
    | some (lexeme, after) =>
      if after.length < cs.length then (lexemes? after).map (lexeme :: ·) else none
termination_by cs.length

/-- A container that is still open, with its parts so far in reverse. -/
inductive Frame where
  | array (items : List Json)
  | object (members : List (Text × Json))
  /-- An object whose last key still waits for its value. -/
  | member (members : List (Text × Json)) (key : Text)

/-- What may come next. -/
inductive Expected where
  /-- A value. -/
  | value
  /-- A value, or the end of an array that is still empty. -/
  | firstItem
  /-- A key, or the end of an object that is still empty. -/
  | firstKey
  /-- A key. -/
  | key
  /-- A colon. -/
  | colon
  /-- A comma, or the end of the innermost container. -/
  | separator

/-- A text that is read in part: the open containers from the innermost one outwards, and what may
come next; or a value that is complete. -/
inductive Progress where
  | within (frames : List Frame) (next : Expected)
  | complete (value : Json)

/-- How deep containers may be nested. -/
def maxDepth : Nat := 127

/-- Hands a value to the innermost open container. -/
def deliver (value : Json) : List Frame → Option Progress
  | [] => some (.complete value)
  | .array items :: frames => some (.within (.array (value :: items) :: frames) .separator)
  | .member members key :: frames =>
    some (.within (.object ((key, value) :: members) :: frames) .separator)
  | .object _ :: _ => none

/-- Opens a container, unless there are too many open ones. -/
def openFrame (frame : Frame) (frames : List Frame) (next : Expected) : Option Progress :=
  if frames.length < maxDepth then some (.within (frame :: frames) next) else none

/-- Takes one more lexeme. -/
def advance? : Progress → Lexeme → Option Progress
  | .complete _, _ => none
  | .within frames next, lexeme =>
    match next, lexeme, frames with
    | .value, .scalar v, frames => deliver v frames
    | .value, .string t, frames => deliver (.string t) frames
    | .value, .openArray, frames => openFrame (.array []) frames .firstItem
    | .value, .openObject, frames => openFrame (.object []) frames .firstKey
    | .firstItem, .scalar v, frames => deliver v frames
    | .firstItem, .string t, frames => deliver (.string t) frames
    | .firstItem, .openArray, frames => openFrame (.array []) frames .firstItem
    | .firstItem, .openObject, frames => openFrame (.object []) frames .firstKey
    | .firstItem, .closeArray, .array _ :: frames => deliver (.array []) frames
    | .firstKey, .string t, .object members :: frames =>
      some (.within (.member members t :: frames) .colon)
    | .firstKey, .closeObject, .object _ :: frames => deliver (.object []) frames
    | .key, .string t, .object members :: frames =>
      some (.within (.member members t :: frames) .colon)
    | .colon, .colon, frames => some (.within frames .value)
    | .separator, .comma, .array items :: frames =>
      some (.within (.array items :: frames) .value)
    | .separator, .comma, .object members :: frames =>
      some (.within (.object members :: frames) .key)
    | .separator, .closeArray, .array items :: frames => deliver (.array items.reverse) frames
    | .separator, .closeObject, .object members :: frames =>
      deliver (.object members.reverse) frames
    | _, _, _ => none

/-- The value that lexemes write, with the members of objects as written. -/
def ofLexemes? (lexemes : List Lexeme) : Option Json :=
  match lexemes.foldlM advance? (.within [] .value) with
  | some (.complete value) => some value
  | _ => none

/-- The value of a JSON text, with the members of objects as written. -/
def parse? (cs : Text) : Option Json := (lexemes? cs).bind ofLexemes?

/-- The value of a JSON text in canonical form. -/
def read? (cs : Text) : Option Json := (parse? cs).map canonical

end MustachePath.Json
