import MustachePath.Yaml.Token

/-!
# The tokens of a YAML stream in order

Indentation opens and closes block collections. A token that may turn out to be the key of a mapping
is remembered together with its place among the tokens; when a colon follows on the same line, the
tokens that announce the key are put in before it. A remembered key that must be one, because it
stands at the indentation of a block mapping, has to be followed by a colon.
-/

namespace MustachePath.Yaml

/-- A token that may be a key: whether it must be one, how many tokens come before it, and where it
begins. -/
structure KeyCandidate where
  required : Bool
  before : Nat
  place : Located

/-- A stream that is read in part. Tokens are kept from the latest to the earliest. There is a
possible key for the innermost flow collection, or for the block around it, and one for each
level further out. -/
structure Layout where
  cursor : Cursor
  tokens : List Token
  count : Nat
  candidate : Option KeyCandidate
  outerCandidates : List (Option KeyCandidate)
  indent : Int
  outerIndents : List Int
  keyAllowed : Bool

namespace Layout

/-- A stream that is not read yet. -/
def start (cur : Cursor) : Layout where
  cursor := cur
  tokens := []
  count := 0
  candidate := none
  outerCandidates := []
  indent := -1
  outerIndents := []
  keyAllowed := true

/-- Whether a flow collection is open. -/
def inFlow (s : Layout) : Bool := !s.outerCandidates.isEmpty

/-- Adds a token. -/
def push (t : Token) (s : Layout) : Layout :=
  { s with tokens := t :: s.tokens, count := s.count + 1 }

/-- Puts a token in after the given number of tokens. -/
def insertAfter (n : Nat) (t : Token) (s : Layout) : Layout :=
  { s with tokens := s.tokens.insertIdx (s.count - n) t, count := s.count + 1 }

/-- Moves on to a cursor. -/
def moveTo (cur : Cursor) (s : Layout) : Layout := { s with cursor := cur }

/-- Says whether a key may begin next. -/
def allowKey (allowed : Bool) (s : Layout) : Layout := { s with keyAllowed := allowed }

/-- Skips blanks, comments and line ends. A tab counts as a blank where no key may begin. A byte
order mark may begin the stream. -/
def skipGap (cur : Cursor) (inFlow keyAllowed inComment : Bool) : Cursor × Bool :=
  match cur with
  | [] => ([], keyAllowed)
  | c :: cs =>
    if isBreak c.char then skipGap cs inFlow (keyAllowed || !inFlow) false
    else if inComment || c.char == ' ' || c.char == '#' ||
        (c.char == '\t' && (inFlow || !keyAllowed)) || (c.index == 0 && c.char.toNat == 0xFEFF) then
      skipGap cs inFlow keyAllowed (inComment || c.char == '#')
    else (c :: cs, keyAllowed)

/-- Forgets the possible key of the innermost level, unless it must be a key. -/
def dropCandidate? (s : Layout) : Option Layout :=
  if s.candidate.any fun k => k.required then none else some { s with candidate := none }

/-- Whether a possible key is too far back to be one: on an earlier line, or more than 1024
characters before. -/
def isStale (place : Located) (k : KeyCandidate) : Bool :=
  k.place.line < place.line || k.place.index + 1024 < place.index

/-- Forgets the possible keys of all levels that are too far back, unless one of them must be a
key. -/
def dropStale? (place : Located) (s : Layout) : Option Layout :=
  let all := s.candidate :: s.outerCandidates
  if all.any fun k => k.any fun k => isStale place k && k.required then none
  else
    let fresh (k : Option KeyCandidate) := k.filter fun k => !isStale place k
    some { s with candidate := fresh s.candidate, outerCandidates := s.outerCandidates.map fresh }

/-- Remembers a token that begins next as a possible key, where one may begin. -/
def saveCandidate? (place : Located) (s : Layout) : Option Layout :=
  if s.keyAllowed then
    s.dropCandidate?.map fun s =>
      { s with candidate := some ⟨!s.inFlow && s.indent == place.column, s.count, place⟩ }
  else some s

/-- Closes the block collections with more than a given indentation. -/
def unroll (column : Int) (s : Layout) : Layout :=
  if s.inFlow then s else go s s.outerIndents
where
  /-- Closes block collections, given the indentations further out. -/
  go (s : Layout) : List Int → Layout
    | [] => s
    | outer :: rest =>
      if column < s.indent then
        go { s with tokens := .blockEnd :: s.tokens, count := s.count + 1, indent := outer,
                    outerIndents := rest } rest
      else s

/-- Opens a block collection at a column deeper than the present indentation. Its token comes after
the given number of tokens. -/
def roll (column : Nat) (before : Nat) (t : Token) (s : Layout) : Layout :=
  if s.inFlow || decide ((column : Int) ≤ s.indent) then s
  else
    { s with indent := column, outerIndents := s.indent :: s.outerIndents }.insertAfter before t

/-- Opens a flow collection. -/
def openFlow? (place : Located) (t : Token) (rest : Cursor) (s : Layout) : Option Layout :=
  (s.saveCandidate? place).map fun s =>
    ({ s with candidate := none, outerCandidates := s.candidate :: s.outerCandidates,
              keyAllowed := true }.moveTo rest).push t

/-- Closes a flow collection. -/
def closeFlow? (t : Token) (rest : Cursor) (s : Layout) : Option Layout :=
  s.dropCandidate?.map fun s =>
    let s := match s.outerCandidates with
      | [] => s
      | k :: ks => { s with candidate := k, outerCandidates := ks }
    ((s.allowKey false).moveTo rest).push t

/-- Takes a sign that opens or continues a block collection of its kind. -/
def blockSign? (place : Located) (collection sign : Token) (keyAfter : Bool) (rest : Cursor)
    (s : Layout) : Option Layout := do
  if !s.inFlow && !s.keyAllowed then none
  let s ← (s.roll place.column s.count collection).dropCandidate?
  return ((s.allowKey keyAfter).moveTo rest).push sign

/-- Takes a colon. A possible key before it becomes a key. -/
def valueSign? (place : Located) (rest : Cursor) (s : Layout) : Option Layout :=
  match s.candidate with
  | some k =>
    let s := { s with candidate := none }.insertAfter k.before .key
    let s := s.roll k.place.column k.before .blockMappingStart
    some (((s.allowKey false).moveTo rest).push .value)
  | none =>
    if !s.inFlow && !s.keyAllowed then none
    else
      let s := s.roll place.column s.count .blockMappingStart
      some (((s.allowKey !s.inFlow).moveTo rest).push .value)

/-- Takes a token that may be a key. -/
def node? (place : Located) (t : Token) (rest : Cursor) (s : Layout) : Option Layout :=
  (s.saveCandidate? place).map fun s => ((s.allowKey false).moveTo rest).push t

/-- Takes a token that ends all block collections. -/
def margin? (t : Token) (rest : Cursor) (s : Layout) : Option Layout :=
  (s.unroll (-1)).dropCandidate?.map fun s => ((s.allowKey false).moveTo rest).push t

/-- Takes a block scalar. -/
def blockScalar? (literal : Bool) (rest : Cursor) (s : Layout) : Option Layout := do
  let s ← s.dropCandidate?
  let (text, rest) ← block? literal s.indent rest
  return ((s.allowKey true).moveTo rest).push (.scalar text false)

/-- Takes a plain scalar. -/
def plainScalar? (place : Located) (cur : Cursor) (s : Layout) : Option Layout := do
  let s ← s.saveCandidate? place
  let (p, rest) ← plain? s.inFlow (s.indent + 1).toNat cur
  return ((s.allowKey p.brokenAfter).moveTo rest).push (.scalar p.text true)

/-- The characters that cannot begin a plain scalar. -/
def isIndicator (c : Char) : Bool :=
  ['\t', '-', '?', ':', ',', '[', ']', '{', '}', '#', '&', '*', '!', '|', '>', '\'', '"', '%', '@',
    Char.ofNat 0x60].contains c

/-- Takes the token that begins with a character. -/
def token? (c : Located) (cs : Cursor) (s : Layout) : Option Layout :=
  let cur := c :: cs
  let gapNext := Cursor.atGap cs
  if c.column == 0 && c.char == '%' then do
    let s ← (s.unroll (-1)).dropCandidate?
    let (t, rest) ← directive? cs
    return ((s.allowKey false).moveTo rest).push t
  else if Cursor.atMarker '-' cur then s.margin? .documentStart (cur.drop 3)
  else if Cursor.atMarker '.' cur then s.margin? .documentEnd (cur.drop 3)
  else if c.char == '[' then s.openFlow? c .flowSequenceStart cs
  else if c.char == '{' then s.openFlow? c .flowMappingStart cs
  else if c.char == ']' then s.closeFlow? .flowSequenceEnd cs
  else if c.char == '}' then s.closeFlow? .flowMappingEnd cs
  else if c.char == ',' then
    s.dropCandidate?.map fun s => ((s.allowKey true).moveTo cs).push .flowEntry
  else if c.char == '-' && gapNext then
    s.blockSign? c .blockSequenceStart .blockEntry true cs
  else if c.char == '?' && (s.inFlow || gapNext) then
    s.blockSign? c .blockMappingStart .key (!s.inFlow) cs
  else if c.char == ':' && (s.inFlow || gapNext) then s.valueSign? c cs
  else if c.char == '*' then (anchorName? cs).bind fun p => s.node? c (.alias p.1) p.2
  else if c.char == '&' then (anchorName? cs).bind fun p => s.node? c (.anchor p.1) p.2
  else if c.char == '!' then (tag? s.inFlow cur).bind fun p => s.node? c p.1 p.2
  else if c.char == '|' && !s.inFlow then s.blockScalar? true cs
  else if c.char == '>' && !s.inFlow then s.blockScalar? false cs
  else if c.char == '\'' then
    (singleQuotedFrom? none cs).bind fun p => s.node? c (.scalar p.1 false) p.2
  else if c.char == '"' then
    (doubleQuotedFrom? none none cs).bind fun p => s.node? c (.scalar p.1 false) p.2
  else if !isIndicator c.char ||
      (c.char == '-' && !gapNext) ||
      (!s.inFlow && (c.char == '?' || c.char == ':') && !gapNext) then s.plainScalar? c cur
  else none

/-- Reads a stream to its end. Every token takes at least one character. -/
def finish? (s : Layout) : Option (List Token) :=
  let (cur, allowed) := skipGap s.cursor s.inFlow s.keyAllowed false
  match cur with
  | [] => ((s.unroll (-1)).dropCandidate?).map fun s => s.tokens.reverse
  | c :: cs =>
    match (((s.allowKey allowed).dropStale? c).map (unroll c.column)).bind (token? c cs) with
    | none => none
    | some next =>
      if next.cursor.length < s.cursor.length then next.finish? else none
termination_by s.cursor.length

end Layout

/-- The tokens of a text, if it keeps to the rules of the format. -/
def tokens? (cs : Text) : Option (List Token) :=
  (locate? cs).bind fun cur => (Layout.start cur).finish?

end MustachePath.Yaml
