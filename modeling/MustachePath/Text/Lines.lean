import MustachePath.Text.Basic

/-!
# The lines of a text

The byte offsets at which the lines of a text begin stand in an ascending table, which is made once
for the whole text. The line of a place is found by halving the table, and its column by counting
the characters from the beginning of that line.
-/

namespace MustachePath

/-- What a search for a number in an ascending table says: the index of the number, or the index at
which it would have to be inserted. -/
inductive Search where
  | found (index : Nat)
  | missing (index : Nat)
deriving DecidableEq, Repr

namespace Search

/-- Halves a stretch of an ascending table until one entry is left, which is the last one that does
not exceed a number, provided the first entry does not exceed it. -/
def narrow (table : Array Nat) (n base size : Nat) : Nat :=
  if 1 < size then
    let half := size / 2
    if table[base + half]?.any (· ≤ n) then narrow table n (base + half) (size - half)
    else narrow table n base (size - half)
  else base
termination_by size

/-- Searches an ascending table for a number. -/
def run (table : Array Nat) (n : Nat) : Search :=
  let i := narrow table n 0 table.size
  match table[i]? with
  | none => missing 0
  | some m => if m = n then found i else if m < n then missing (i + 1) else missing i

/-- The index of the last entry that does not exceed the number. There is none if the number belongs
before all entries. -/
def lastIndex? : Search → Option Nat
  | found i => some i
  | missing 0 => none
  | missing (i + 1) => some i

end Search

namespace Text

/-- Where lines begin after line feeds, in a text that begins at a byte offset. -/
def lineStartsFrom (offset : Nat) : Text → List Nat
  | [] => []
  | c :: cs =>
    let rest := lineStartsFrom (offset + c.utf8Size) cs
    if c = '\n' then (offset + c.utf8Size) :: rest else rest

/-- The byte offsets at which the lines of a text begin. -/
def lineStarts (cs : Text) : Array Nat := (0 :: lineStartsFrom 0 cs).toArray

/-- The line and the column of a byte offset, both from one, by the table of line starts. An offset
inside a character or beyond the end of the text has none. -/
def lineAndColumn? (starts : Array Nat) (cs : Text) (offset : Nat) : Option (Nat × Nat) := do
  let line ← (Search.run starts offset).lastIndex?
  let start ← starts[line]?
  let before ← slice? start offset cs
  return (line + 1, before.length + 1)

end Text

end MustachePath
