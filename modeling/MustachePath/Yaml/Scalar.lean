import MustachePath.Yaml.Cursor
import MustachePath.Json.Reader

/-!
# Texts of scalars

A scalar is plain, quoted, or a block of lines. In the first two, blanks around a line break fold: a
single break becomes a space, and of several the first is dropped. In a folded block the same holds
between lines that do not begin with a blank.
-/

namespace MustachePath.Yaml

/-- Blanks and breaks between two parts of a scalar: blanks on one line, or a first break and the
further ones. -/
inductive Gap where
  | blanks (text : Text)
  | breaks (first others : Text)

namespace Gap

/-- The gap with one more blank or break. -/
def add (c : Char) : Option Gap → Gap
  | none => if isBreak c then .breaks [c] [] else .blanks [c]
  | some (.blanks text) => if isBreak c then .breaks [c] [] else .blanks (text ++ [c])
  | some (.breaks first others) =>
    if isBreak c then .breaks first (others ++ [c]) else .breaks first others

/-- Whether a gap goes over a line. -/
def isBroken : Option Gap → Bool
  | some (.breaks _ _) => true
  | _ => false

/-- What a gap stands for. -/
def fold : Option Gap → Text
  | none => []
  | some (.blanks text) => text
  | some (.breaks first others) =>
    if first = ['\n'] then if others = [] then [' '] else others else first ++ others

end Gap

/-- A plain scalar that was read: its text, and whether a line break was skipped after it. -/
structure PlainScalar where
  text : Text
  brokenAfter : Bool

namespace PlainScalar

/-- Puts a text before. -/
def before (s : Text) (p : PlainScalar × Cursor) : PlainScalar × Cursor :=
  ({ p.1 with text := s ++ p.1.text }, p.2)

end PlainScalar

/-- The rest of a plain scalar after a gap, and what comes after it. Inside flow collections their
signs end it; outside, lines with less than a given indentation do. -/
def plainFrom? (inFlow : Bool) (indent : Nat) (gap : Option Gap) :
    Cursor → Option (PlainScalar × Cursor)
  | [] => some (⟨[], Gap.isBroken gap⟩, [])
  | c :: cs =>
    let stop : PlainScalar × Cursor := (⟨[], Gap.isBroken gap⟩, c :: cs)
    if isTabOrSpace c.char || isBreak c.char then
      if c.char == '\t' && Gap.isBroken gap && c.column < indent then none
      else plainFrom? inFlow indent (some (Gap.add c.char gap)) cs
    else if gap.isSome &&
        ((!inFlow && c.column < indent) || Cursor.atDocumentMarker (c :: cs) || c.char == '#') then
      some stop
    else if inFlow && c.char == ':' &&
        Cursor.startsWithAny [',', '?', '[', ']', '{', '}'] cs then none
    else if (c.char == ':' && Cursor.atGap cs) ||
        (inFlow && [',', '[', ']', '{', '}'].contains c.char) then some stop
    else (plainFrom? inFlow indent none cs).map (PlainScalar.before (Gap.fold gap ++ [c.char]))

/-- A plain scalar at the front of a cursor, and what comes after it. -/
def plain? (inFlow : Bool) (indent : Nat) (cur : Cursor) : Option (PlainScalar × Cursor) :=
  plainFrom? inFlow indent none cur

/-- Puts a text before what was read. -/
def prepend (s : Text) (p : Text × Cursor) : Text × Cursor := (s ++ p.1, p.2)

/-- A single-quoted scalar after its opening quote and a gap, and what comes after it. A quote
inside it is written twice. -/
def singleQuotedFrom? (gap : Option Gap) : Cursor → Option (Text × Cursor)
  | [] => none
  | c :: cs =>
    if isTabOrSpace c.char || isBreak c.char then singleQuotedFrom? (some (Gap.add c.char gap)) cs
    else if gap.isSome && Cursor.atDocumentMarker (c :: cs) then none
    else if c.char == '\'' then
      match cs with
      | [] => some (Gap.fold gap, [])
      | d :: ds =>
        if d.char == '\'' then
          (singleQuotedFrom? none ds).map (prepend (Gap.fold gap ++ ['\'']))
        else some (Gap.fold gap, d :: ds)
    else (singleQuotedFrom? none cs).map (prepend (Gap.fold gap ++ [c.char]))

/-- What a backslash and a character stand for in a double-quoted scalar. -/
inductive Escape where
  | char (n : Nat)
  | hex (digits : Nat)

/-- The meaning of a character after a backslash. -/
def escape? : Char → Option Escape
  | '0' => some (.char 0)
  | 'a' => some (.char 7)
  | 'b' => some (.char 8)
  | 't' => some (.char 9)
  | '\t' => some (.char 9)
  | 'n' => some (.char 10)
  | 'v' => some (.char 11)
  | 'f' => some (.char 12)
  | 'r' => some (.char 13)
  | 'e' => some (.char 0x1B)
  | ' ' => some (.char 0x20)
  | '"' => some (.char 0x22)
  | '/' => some (.char 0x2F)
  | '\\' => some (.char 0x5C)
  | 'N' => some (.char 0x85)
  | '_' => some (.char 0xA0)
  | 'L' => some (.char 0x2028)
  | 'P' => some (.char 0x2029)
  | 'x' => some (.hex 2)
  | 'u' => some (.hex 4)
  | 'U' => some (.hex 8)
  | _ => none

/-- The character with a number, if there is one. -/
def charOf? (n : Nat) : Option Char := if n.isValidChar then some (Char.ofNat n) else none

/-- A double-quoted scalar after its opening quote and a gap, and what comes after it. The digits of
a character that is being written by its number are collected until enough are there. -/
def doubleQuotedFrom? (gap : Option Gap) (digits : Option (Nat × Text)) :
    Cursor → Option (Text × Cursor)
  | [] => none
  | c :: cs =>
    match digits with
    | some (n, ds) =>
      if (Json.hexDigit? c.char).isNone then none
      else if n ≤ 1 then do
        let char ← charOf? (← Json.hexValue? (ds ++ [c.char]))
        (doubleQuotedFrom? none none cs).map (prepend [char])
      else doubleQuotedFrom? none (some (n - 1, ds ++ [c.char])) cs
    | none =>
      if isTabOrSpace c.char || isBreak c.char then
        doubleQuotedFrom? (some (Gap.add c.char gap)) none cs
      else if gap.isSome && Cursor.atDocumentMarker (c :: cs) then none
      else if c.char == '"' then some (Gap.fold gap, cs)
      else if c.char == '\\' then
        match cs with
        | [] => none
        | d :: ds =>
          if isBreak d.char then
            (doubleQuotedFrom? (some (.breaks [] [])) none ds).map (prepend (Gap.fold gap))
          else
            match escape? d.char with
            | none => none
            | some (.char n) =>
              (doubleQuotedFrom? none none ds).map (prepend (Gap.fold gap ++ [Char.ofNat n]))
            | some (.hex n) =>
              (doubleQuotedFrom? none (some (n, [])) ds).map (prepend (Gap.fold gap))
      else (doubleQuotedFrom? none none cs).map (prepend (Gap.fold gap ++ [c.char]))

/-- What is kept of the line breaks at the end of a block. -/
inductive Chomping where
  | strip
  | clip
  | keep

/-- The head of a block: what is kept at its end, and its indentation if that is given. -/
structure BlockHeader where
  chomping : Chomping
  increment : Option Nat

/-- The sign for what is kept at the end, if it comes next. -/
def readChomping : Cursor → Option Chomping × Cursor
  | [] => (none, [])
  | c :: cs =>
    if c.char == '+' then (some .keep, cs)
    else if c.char == '-' then (some .strip, cs)
    else (none, c :: cs)

/-- The digit for the indentation, if a digit comes next. Zero is refused. -/
def readIncrement? : Cursor → Option (Option Nat × Cursor)
  | [] => some (none, [])
  | c :: cs =>
    if Text.isAsciiDigit c.char then
      if c.char == '0' then none else some (some (Text.digitValue c.char), cs)
    else some (none, c :: cs)

/-- The head of a block after its sign, and what comes after the head's line. The two parts may
stand in either order. -/
def blockHeader? (cur : Cursor) : Option (BlockHeader × Cursor) := do
  let (early, cur) := readChomping cur
  let (increment, cur) ← readIncrement? cur
  let (late, cur) :=
    if early.isNone && increment.isSome then readChomping cur else (none, cur)
  return (⟨(early.or late).getD .clip, increment⟩, ← Cursor.endLine? cur)

/-- The empty lines before the next line of a block with its indentation skipped: their breaks, the
largest column reached, and what comes next. The indentation may still be unknown. A tab must not
stand in the indentation. -/
def blockGap? (indent : Option Nat) : Cursor → Option (Text × Nat × Cursor)
  | [] => some ([], 0, [])
  | c :: cs =>
    let inIndent := (indent.map fun n => decide (c.column < n)).getD true
    if inIndent && c.char == ' ' then blockGap? indent cs
    else if inIndent && c.char == '\t' then none
    else if isBreak c.char then
      (blockGap? indent cs).map fun p => (c.char :: p.1, max c.column p.2.1, p.2.2)
    else some ([], c.column, c :: cs)

/-- The lines of a block from one on: what they add to the text, the break at the end of the last
one, the breaks of the empty lines after it, and what comes next. The arguments before the cursor
are the break and the empty lines before the line, and whether the previous line began with a
blank. -/
def blockLines? (literal : Bool) (indent : Nat) (lead trail : Text) (blankBefore : Bool)
    (cur : Cursor) : Option (Text × Text × Text × Cursor) :=
  match cur with
  | [] => some ([], lead, trail, [])
  | c :: cs =>
    if c.column = indent then
      let blank := isTabOrSpace c.char
      let joined :=
        if !literal && lead == ['\n'] && !blankBefore && !blank then
          (if trail = [] then [' '] else []) ++ trail
        else lead ++ trail
      let (line, rest) := Cursor.span (fun d => !isBreak d) (c :: cs)
      let (nextLead, rest) : Text × Cursor := match rest with
        | [] => ([], [])
        | b :: rest => ([b.char], rest)
      match blockGap? (some indent) rest with
      | none => none
      | some (nextTrail, _, rest) =>
        if rest.length < (c :: cs).length then
          (blockLines? literal indent nextLead nextTrail blank rest).map fun p =>
            (joined ++ line ++ p.1, p.2)
        else none
    else some ([], lead, trail, c :: cs)
termination_by cur.length
decreasing_by assumption

/-- The text of a block after its sign, and what comes after it. The indentation of the
surroundings is less than nothing at the top. -/
def block? (literal : Bool) (outer : Int) (cur : Cursor) : Option (Text × Cursor) := do
  let (header, cur) ← blockHeader? cur
  let given := header.increment.map fun n => (max outer 0).toNat + n
  let (trail, reached, cur) ← blockGap? given cur
  let indent := given.getD (max reached (max (outer + 1).toNat 1))
  let (text, lead, trail, cur) ← blockLines? literal indent [] trail false cur
  let ending := match header.chomping with
    | .strip => []
    | .clip => lead
    | .keep => lead ++ trail
  return (text ++ ending, cur)

end MustachePath.Yaml
