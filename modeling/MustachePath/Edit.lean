import MustachePath.Text.Basic

/-!
# Edits of a text

An edit replaces a range of bytes. A list of edits is applied from the last place to the first, so
that the places of the edits still to come stay valid; edits at one place keep their order.
-/

namespace MustachePath

/-- The replacement of the bytes from `start` up to `stop`. -/
structure Edit where
  start : Nat
  stop : Nat
  replacement : Text
deriving DecidableEq, Repr

namespace Edit

/-- Applies one edit, unless its range is reversed, leaves the text, or cuts a character. -/
def splice? (text : Text) (e : Edit) : Option Text :=
  match Text.splitAtByte? e.start text, Text.splitAtByte? e.stop text with
  | some (front, _), some (_, back) =>
    if e.start ≤ e.stop then some (front ++ e.replacement ++ back) else none
  | _, _ => none

/-- Edits by descending place, in their given order where places are equal. -/
def fromLast (edits : List Edit) : List Edit :=
  edits.mergeSort fun a b => b.start ≤ a.start

/-- Applies edits from the last place to the first. -/
def applyAll? (edits : List Edit) (text : Text) : Option Text :=
  (fromLast edits).foldlM splice? text

@[simp] theorem applyAll?_nil (text : Text) : applyAll? [] text = some text := by
  simp [applyAll?, fromLast]

end Edit

end MustachePath
