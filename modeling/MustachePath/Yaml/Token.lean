import MustachePath.Yaml.Scalar

/-!
# Tokens of a YAML stream

The tokens besides scalars: signs, the begins and ends of collections, document markers, directives,
anchors, aliases and tags. Here are the readers for those that carry a text.
-/

namespace MustachePath.Yaml

/-- The tokens of a stream. Block collections begin and end by indentation. -/
inductive Token where
  | versionDirective (major minor : Nat)
  | tagDirective (handle start : Text)
  | documentStart
  | documentEnd
  | blockSequenceStart
  | blockMappingStart
  | blockEnd
  | flowSequenceStart
  | flowSequenceEnd
  | flowMappingStart
  | flowMappingEnd
  | blockEntry
  | flowEntry
  | key
  | value
  | alias (name : Text)
  | anchor (name : Text)
  | tag (handle suffix : Text)
  | scalar (text : Text) (plain : Bool)
deriving DecidableEq, Repr

/-- Letters and digits of ASCII, the underscore and the hyphen. -/
def isNameChar (c : Char) : Bool := c.isAlphanum || c == '_' || c == '-'

/-- The name of an anchor or an alias after its sign, and what comes after it. -/
def anchorName? (cur : Cursor) : Option (Text × Cursor) :=
  let (name, rest) := Cursor.span isNameChar cur
  if name = [] then none
  else if Cursor.atGap rest ||
      Cursor.startsWithAny ['?', ':', ',', ']', '}', '%', '@', Char.ofNat 0x60] rest then
    some (name, rest)
  else none

/-- Whether a character may stand in the text of a tag. Between angle brackets some more may. -/
def isUriChar (verbatim : Bool) (c : Char) : Bool :=
  isNameChar c ||
    [';', '/', '?', ':', '@', '&', '=', '+', '$', '.', '!', '~', '*', '\'', '(', ')'].contains c ||
    (verbatim && [',', '[', ']'].contains c)

/-- How many bytes a character has in UTF-8, by its first byte. -/
def utf8Width? (byte : Nat) : Option Nat :=
  if byte < 0x80 then some 1
  else if byte < 0xC0 then none
  else if byte < 0xE0 then some 2
  else if byte < 0xF0 then some 3
  else if byte < 0xF8 then some 4
  else none

/-- The character that bytes write in UTF-8, the first byte and the others. -/
def utf8Char (first : Nat) (others : List Nat) : Char :=
  let lead := if others.length = 0 then first else first % Nat.pow 2 (6 - others.length)
  Char.ofNat <| others.foldl (fun n b => 64 * n + b % 64) lead

/-- The text of a tag, and what comes after it. Bytes may be written by their hexadecimal value; the
pending part is a first byte, the others so far, and how many are missing. -/
def uriFrom? (verbatim : Bool) (pending : Option (Nat × List Nat × Nat)) :
    Cursor → Option (Text × Cursor)
  | [] => if pending.isNone then some ([], []) else none
  | p :: a :: b :: cs =>
    if p.char == '%' then do
      let byte ← Json.hexValue? [a.char, b.char]
      match pending with
      | none =>
        let width ← utf8Width? byte
        if width = 1 then (uriFrom? verbatim none cs).map (prepend [Char.ofNat byte])
        else uriFrom? verbatim (some (byte, [], width - 1)) cs
      | some (first, others, missing) =>
        if 0x80 ≤ byte ∧ byte < 0xC0 then
          let others := others ++ [byte]
          if missing ≤ 1 then
            (uriFrom? verbatim none cs).map (prepend [utf8Char first others])
          else uriFrom? verbatim (some (first, others, missing - 1)) cs
        else none
    else if pending.isSome then none
    else if isUriChar verbatim p.char then
      (uriFrom? verbatim none (a :: b :: cs)).map (prepend [p.char])
    else some ([], p :: a :: b :: cs)
  | p :: cs =>
    if p.char == '%' || pending.isSome then none
    else if isUriChar verbatim p.char then (uriFrom? verbatim none cs).map (prepend [p.char])
    else some ([], p :: cs)

/-- The text of a tag after a text that belongs to it already, and what comes after it. Both
together must not be empty. -/
def uri? (verbatim : Bool) (head : Text) (cur : Cursor) : Option (Text × Cursor) := do
  let (text, rest) ← uriFrom? verbatim none cur
  if head = [] ∧ text = [] then none
  return (head.drop 1 ++ text, rest)

/-- An exclamation mark, a name and perhaps a second exclamation mark, and what comes after. -/
def tagHandle? : Cursor → Option (Text × Cursor)
  | [] => none
  | c :: cs =>
    if c.char == '!' then
      let (name, rest) := Cursor.span isNameChar cs
      match rest with
      | [] => some ('!' :: name, [])
      | d :: ds =>
        if d.char == '!' then some ('!' :: name ++ ['!'], ds) else some ('!' :: name, d :: ds)
    else none

/-- Whether a handle is an exclamation mark, a name and a second exclamation mark. -/
def isNamedHandle (handle : Text) : Bool := 2 ≤ handle.length && handle.getLast? == some '!'

/-- A tag at the front of a cursor, and what comes after it. A tag without a handle of its own has
the handle of a single exclamation mark, and a lone exclamation mark has an empty handle. -/
def tag? (inFlow : Bool) (cur : Cursor) : Option (Token × Cursor) := do
  let (token, rest) ← match cur with
    | a :: b :: cs =>
      if a.char == '!' && b.char == '<' then do
        let (text, rest) ← uri? true [] cs
        match rest with
        | c :: rest => if c.char == '>' then some (.tag [] text, rest) else none
        | [] => none
      else named (a :: b :: cs)
    | cs => named cs
  if Cursor.atGap rest || (inFlow && Cursor.startsWith ',' rest) then return (token, rest)
  else none
where
  /-- A tag that does not stand between angle brackets. -/
  named (cur : Cursor) : Option (Token × Cursor) := do
    let (handle, rest) ← tagHandle? cur
    if isNamedHandle handle then
      let (suffix, rest) ← uri? false [] rest
      return (.tag handle suffix, rest)
    else
      let (suffix, rest) ← uri? false handle rest
      return (if suffix = [] then .tag [] ['!'] else .tag ['!'] suffix, rest)

/-- A part of a version, at most nine digits, and what comes after it. -/
def versionPart? (cur : Cursor) : Option (Nat × Cursor) :=
  let (digits, rest) := Cursor.span Text.isAsciiDigit cur
  if digits = [] ∨ 9 < digits.length then none else some (Text.decimalValue digits, rest)

/-- A directive after its percent sign, and what comes after its line. -/
def directive? (cur : Cursor) : Option (Token × Cursor) := do
  let (name, cur) := Cursor.span isNameChar cur
  if !Cursor.atGap cur then none
  if name = "YAML".toList then
    let (major, cur) ← versionPart? (Cursor.skipBlanks cur)
    if !Cursor.startsWith '.' cur then none
    let (minor, cur) ← versionPart? (cur.drop 1)
    return (.versionDirective major minor, ← Cursor.endLine? cur)
  else if name = "TAG".toList then
    let (handle, cur) ← tagHandle? (Cursor.skipBlanks cur)
    if handle ≠ ['!'] ∧ !isNamedHandle handle then none
    if !(Cursor.atGap cur && !Cursor.atLineEnd cur) then none
    let (start, cur) ← uri? true [] (Cursor.skipBlanks cur)
    if !Cursor.atGap cur then none
    return (.tagDirective handle start, ← Cursor.endLine? cur)
  else none

end MustachePath.Yaml
