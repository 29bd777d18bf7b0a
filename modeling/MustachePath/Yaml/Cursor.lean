import MustachePath.Text.Basic

/-!
# Located characters of a YAML stream

A stream is a list of characters that know their place. All ways to end a line but the two Unicode
separators are one line feed. A cursor is what is left of the list.
-/

namespace MustachePath.Yaml

/-- A character with its line, its column and its index in the stream, all from zero. -/
structure Located where
  char : Char
  line : Nat
  column : Nat
  index : Nat
deriving DecidableEq, Repr

/-- What is left of a stream. -/
abbrev Cursor := List Located

/-- The line separator and the paragraph separator of Unicode. -/
def isSeparator (c : Char) : Bool := c.toNat == 0x2028 || c.toNat == 0x2029

/-- Whether a character ends a line in a located stream. -/
def isBreak (c : Char) : Bool := c == '\n' || isSeparator c

/-- A space or a tab. -/
def isTabOrSpace (c : Char) : Bool := c == ' ' || c == '\t'

/-- Whether a character may occur in a stream. -/
def isAllowed (c : Char) : Bool :=
  let n := c.toNat
  n == 9 || n == 10 || n == 13 || (0x20 ≤ n && n ≤ 0x7E) || n == 0x85 ||
    (0xA0 ≤ n && n ≤ 0xD7FF) || (0xE000 ≤ n && n ≤ 0xFFFD) || 0x10000 ≤ n

/-- The characters of a text from a place on. -/
def locateFrom (line column index : Nat) : Text → Cursor
  | [] => []
  | '\r' :: '\n' :: cs => ⟨'\n', line, column, index⟩ :: locateFrom (line + 1) 0 (index + 2) cs
  | c :: cs =>
    if c == '\r' || c == '\n' || c.toNat == 0x85 then
      ⟨'\n', line, column, index⟩ :: locateFrom (line + 1) 0 (index + 1) cs
    else if isSeparator c then
      ⟨c, line, column, index⟩ :: locateFrom (line + 1) 0 (index + 1) cs
    else ⟨c, line, column, index⟩ :: locateFrom line (column + 1) (index + 1) cs

/-- The located characters of a text, if all of them are allowed. -/
def locate? (cs : Text) : Option Cursor :=
  if cs.all isAllowed then some (locateFrom 0 0 0 cs) else none

namespace Cursor

/-- Whether a blank, a line break or the end comes next. -/
def atGap : Cursor → Bool
  | [] => true
  | c :: _ => isTabOrSpace c.char || isBreak c.char

/-- Whether a line break or the end comes next. -/
def atLineEnd : Cursor → Bool
  | [] => true
  | c :: _ => isBreak c.char

/-- Whether a given character comes next. -/
def startsWith (char : Char) : Cursor → Bool
  | [] => false
  | c :: _ => c.char == char

/-- Whether one of some characters comes next. -/
def startsWithAny (chars : List Char) : Cursor → Bool
  | [] => false
  | c :: _ => chars.contains c.char

/-- Whether three equal characters at the beginning of a line stand alone. -/
def atMarker (char : Char) : Cursor → Bool
  | a :: b :: c :: rest =>
    a.column == 0 && a.char == char && b.char == char && c.char == char && atGap rest
  | _ => false

/-- Whether the beginning or the end of a document is marked next. -/
def atDocumentMarker (cur : Cursor) : Bool := atMarker '-' cur || atMarker '.' cur

/-- What comes after blanks. -/
def skipBlanks (cur : Cursor) : Cursor := cur.dropWhile fun c => isTabOrSpace c.char

/-- What comes after the rest of a line, without its end. -/
def skipLine (cur : Cursor) : Cursor := cur.dropWhile fun c => !isBreak c.char

/-- What comes after a comment, if there is one. -/
def skipComment (cur : Cursor) : Cursor := if startsWith '#' cur then skipLine cur else cur

/-- What comes after a line that holds nothing more than blanks and a comment. -/
def endLine? (cur : Cursor) : Option Cursor :=
  match skipComment (skipBlanks cur) with
  | [] => some []
  | c :: rest => if isBreak c.char then some rest else none

/-- The characters at the front that pass a test, and what comes after them. -/
def span (test : Char → Bool) (cur : Cursor) : Text × Cursor :=
  ((cur.takeWhile fun c => test c.char).map Located.char, cur.dropWhile fun c => test c.char)

end Cursor

end MustachePath.Yaml
