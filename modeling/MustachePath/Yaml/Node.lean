import MustachePath.Yaml.Layout

/-!
# Nodes of a YAML document

Tokens are put together to the tree of nodes of the one document that a stream may hold. Anchors are
numbered: a new anchor gets the number of different names that came before it, and an alias carries
the number that its name has at that place.
-/

namespace MustachePath.Yaml

/-- What stands before a node: the number of its anchor, and its tag. -/
structure Properties where
  anchor : Option Nat
  tag : Option Text
deriving DecidableEq, Repr

/-- A node. A scalar is plain when it is written without quotes and not as a block. -/
inductive Node where
  | scalar (properties : Properties) (text : Text) (plain : Bool)
  | sequence (properties : Properties) (items : List Node)
  | mapping (properties : Properties) (members : List (Node × Node))
  | alias (number : Nat)
deriving Repr

/-- An empty scalar without properties. -/
def Node.empty : Node := .scalar ⟨none, none⟩ [] true

/-- Tokens that are read in part: those still to come, the numbers of anchors, how many different
names there were, and the starts of tags by their handles. -/
structure Reading where
  tokens : List Token
  anchors : List (Text × Nat)
  handles : List (Text × Text)

/-- A step of reading, which may fail. -/
abbrev Reader := StateT Reading Option

namespace Reader

/-- The next token. -/
def peek : Reader (Option Token) := do return (← get).tokens.head?

/-- Drops the next token. -/
def skip : Reader Unit := modify fun s => { s with tokens := s.tokens.drop 1 }

/-- Drops the next token if it is a given one, and says whether it was. -/
def accept (t : Token) : Reader Bool := do
  if (← peek) = some t then
    skip
    return true
  else return false

/-- Drops a given token, which has to come next. -/
def expect (t : Token) : Reader Unit := do
  if !(← accept t) then failure

/-- Whether one of some tokens comes next. -/
def atAny (ts : List Token) : Reader Bool := do
  match ← peek with
  | none => return false
  | some t => return ts.contains t

/-- Gives a new anchor its number. -/
def nameAnchor (name : Text) : Reader Nat := do
  let s ← get
  let n := s.anchors.length
  set { s with anchors := (name, n) :: s.anchors.filter fun a => a.1 ≠ name }
  return n

/-- The number of an anchor that was given before. -/
def findAnchor (name : Text) : Reader Nat := do
  match (← get).anchors.find? fun a => a.1 = name with
  | some a => return a.2
  | none => failure

/-- The whole tag for a handle and a suffix. The empty handle stands for nothing. -/
def resolveTag (handle suffix : Text) : Reader Text := do
  if handle = [] then return suffix
  match (← get).handles.find? fun h => h.1 = handle with
  | some h => return h.2 ++ suffix
  | none => failure

/-- An anchor, if it comes next. -/
def anchor? : Reader (Option Text) := do
  match ← peek with
  | some (.anchor name) =>
    skip
    return some name
  | _ => return none

/-- A tag, if it comes next. -/
def tag? : Reader (Option (Text × Text)) := do
  match ← peek with
  | some (.tag handle suffix) =>
    skip
    return some (handle, suffix)
  | _ => return none

/-- The name of the anchor and the tag before a node, in either order. -/
def properties : Reader (Option Text × Option Text) := do
  let early ← anchor?
  let tag ← tag?
  let late ← if early.isNone && tag.isSome then anchor? else pure none
  let resolved ← match tag with
    | some (handle, suffix) => some <$> resolveTag handle suffix
    | none => pure none
  return (early.or late, resolved)

/-- Where nodes may stand: in flow collections, in block collections, or as a value of a block
mapping, where a sequence needs no indentation. -/
inductive Context where
  | flow
  | block
  | blockValue
deriving DecidableEq

mutual

/-- A node. The number bounds the steps. -/
def node (context : Context) : Nat → Reader Node
  | 0 => failure
  | n + 1 => do
    match ← peek with
    | some (.alias name) =>
      skip
      return .alias (← findAnchor name)
    | _ =>
      let (name, tag) ← properties
      match ← peek with
      | some (.scalar text plain) =>
        skip
        let anchor ← name.mapM nameAnchor
        let tag := if tag = some ['!'] then none else tag
        return .scalar ⟨anchor, tag⟩ text plain
      | some .flowSequenceStart =>
        skip
        let anchor ← name.mapM nameAnchor
        return .sequence ⟨anchor, tag⟩ (← flowItems true n)
      | some .flowMappingStart =>
        skip
        let anchor ← name.mapM nameAnchor
        return .mapping ⟨anchor, tag⟩ (← flowMembers true n)
      | next =>
        if context = .blockValue ∧ next = some .blockEntry then
          let anchor ← name.mapM nameAnchor
          return .sequence ⟨anchor, tag⟩ (← plainItems n)
        else if context ≠ .flow ∧ next = some .blockSequenceStart then
          skip
          let anchor ← name.mapM nameAnchor
          return .sequence ⟨anchor, tag⟩ (← blockItems n)
        else if context ≠ .flow ∧ next = some .blockMappingStart then
          skip
          let anchor ← name.mapM nameAnchor
          return .mapping ⟨anchor, tag⟩ (← blockMembers n)
        else if name.isSome || tag.isSome then
          let anchor ← name.mapM nameAnchor
          return .scalar ⟨anchor, tag⟩ [] true
        else failure

/-- The further items of a block sequence, up to its end. -/
def blockItems : Nat → Reader (List Node)
  | 0 => failure
  | n + 1 => do
    if ← accept .blockEnd then return []
    expect .blockEntry
    let item ← if ← atAny [.blockEntry, .blockEnd] then pure Node.empty else node .block n
    return item :: (← blockItems n)

/-- The further items of a sequence without indentation of its own. -/
def plainItems : Nat → Reader (List Node)
  | 0 => failure
  | n + 1 => do
    if ← accept .blockEntry then
      let item ← if ← atAny [.blockEntry, .key, .value, .blockEnd] then pure Node.empty
        else node .block n
      return item :: (← plainItems n)
    else return []

/-- The further members of a block mapping, up to its end. -/
def blockMembers : Nat → Reader (List (Node × Node))
  | 0 => failure
  | n + 1 => do
    if ← accept .blockEnd then return []
    expect .key
    let key ← if ← atAny [.key, .value, .blockEnd] then pure Node.empty else node .blockValue n
    let value ←
      if ← accept .value then
        if ← atAny [.key, .value, .blockEnd] then pure Node.empty else node .blockValue n
      else pure Node.empty
    return (key, value) :: (← blockMembers n)

/-- The further items of a flow sequence, up to its end. A pair of key and value is a mapping of its
own; the token after a key sign that has no key is passed over. -/
def flowItems (first : Bool) : Nat → Reader (List Node)
  | 0 => failure
  | n + 1 => do
    if ← accept .flowSequenceEnd then return []
    if !first then expect .flowEntry
    if ← accept .flowSequenceEnd then return []
    let item ←
      if ← accept .key then
        let key ←
          if ← atAny [.value, .flowEntry, .flowSequenceEnd] then
            skip
            pure Node.empty
          else node .flow n
        let value ←
          if ← accept .value then
            if ← atAny [.flowEntry, .flowSequenceEnd] then pure Node.empty else node .flow n
          else pure Node.empty
        pure (Node.mapping ⟨none, none⟩ [(key, value)])
      else node .flow n
    return item :: (← flowItems false n)

/-- The further members of a flow mapping, up to its end. -/
def flowMembers (first : Bool) : Nat → Reader (List (Node × Node))
  | 0 => failure
  | n + 1 => do
    if ← accept .flowMappingEnd then return []
    if !first then expect .flowEntry
    if ← accept .flowMappingEnd then return []
    let member ←
      if ← accept .key then
        let key ← if ← atAny [.value, .flowEntry, .flowMappingEnd] then pure Node.empty
          else node .flow n
        let value ←
          if ← accept .value then
            if ← atAny [.flowEntry, .flowMappingEnd] then pure Node.empty else node .flow n
          else pure Node.empty
        pure (key, value)
      else
        let key ← node .flow n
        pure (key, Node.empty)
    return member :: (← flowMembers false n)

end

/-- The handles that tags have without directives. -/
def defaultHandles : List (Text × Text) :=
  [(['!'], ['!']), (['!', '!'], "tag:yaml.org,2002:".toList)]

/-- Takes the directives before a document: one version at most, which must be a known one, and one
start for each handle. -/
def directives (hasVersion : Bool) (handles : List (Text × Text)) :
    List Token → Option (List (Text × Text) × List Token)
  | .versionDirective major minor :: ts =>
    if hasVersion ∨ major ≠ 1 ∨ (minor ≠ 1 ∧ minor ≠ 2) then none
    else directives true handles ts
  | .tagDirective handle start :: ts =>
    if handles.any fun h => h.1 = handle then none
    else directives hasVersion ((handle, start) :: handles) ts
  | ts => some (handles, ts)

/-- The bound for the steps of reading: a node takes at most three steps for each token. -/
def steps (ts : List Token) : Nat := 3 * ts.length + 3

/-- The node of an explicit document, which may be empty. -/
def content (ts : List Token) : Reader Node := do
  match ← peek with
  | none => return .empty
  | some .documentEnd => return .empty
  | some .documentStart => return .empty
  | some (.versionDirective _ _) => return .empty
  | some (.tagDirective _ _) => return .empty
  | _ => node .block (steps ts)

end Reader

/-- The root node of the document that tokens write; none if there is no document. A second document
is refused. -/
def Node.ofTokens? (ts : List Token) : Option (Option Node) := do
  if ts = [] then return none
  let (handles, rest) ← Reader.directives false [] ts
  let reader : Reader Node :=
    match rest with
    | .documentStart :: _ => do
      Reader.skip
      Reader.content rest
    | _ => if rest.length < ts.length then failure else Reader.node .block (Reader.steps rest)
  let (root, s) ← reader.run ⟨rest, [], handles ++ Reader.defaultHandles⟩
  if s.tokens.all (· = .documentEnd) then return some root else none

end MustachePath.Yaml
