import MustachePath.Mustache.Tag

/-!
# Markers of a tag

A tilde next to the braces trims white space in the output, and an ampersand at the front turns
escaping off. `strip` takes the markers off a tag's text and `wrap` puts a tag together again.
-/

namespace MustachePath

/-- The markers that a tag carries. -/
structure Markers where
  trimsBefore : Bool
  trimsAfter : Bool
  raw : Bool
deriving DecidableEq, Repr

namespace Markers

/-- The text without a marker character at the front, and whether it was there. -/
def stripStart (marker : Char) : Text → Text × Bool
  | [] => ([], false)
  | c :: cs => if c = marker then (cs, true) else (c :: cs, false)

/-- The text without a marker character at the end, and whether it was there. -/
def stripEnd (marker : Char) (cs : Text) : Text × Bool :=
  let p := stripStart marker cs.reverse
  (p.1.reverse, p.2)

/-- The text of a tag without its markers, and the markers. Tildes come first; the ampersand may
follow white space. -/
def strip (body : Text) : Text × Markers :=
  let opened := stripStart '~' body
  let closed := stripEnd '~' opened.1
  let escaped := stripStart '&' (Text.trimStart closed.1)
  (Text.trim escaped.1, ⟨opened.2, closed.2, escaped.2⟩)

/-- A tag with these markers whose text is made of the given parts, separated by spaces. Empty
parts are left out. -/
def wrap (m : Markers) (parts : List Text) : Text :=
  braced <|
    (if m.trimsBefore then ['~'] else []) ++ (if m.raw then ['&'] else []) ++
      Text.joinSpaced (parts.filter (· ≠ [])) ++ (if m.trimsAfter then ['~'] else [])

end Markers

end MustachePath
