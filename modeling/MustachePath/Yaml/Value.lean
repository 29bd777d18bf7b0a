import MustachePath.Json.Value
import MustachePath.Yaml.Node

/-!
# Values of YAML documents

A plain scalar without a tag is a null, a truth value, a number or else a text. Tags of the core
schema demand one of these, local tags have no value, and under any other tag a scalar is a text. An
alias stands for the last node that was given its number.
-/

namespace MustachePath.Yaml

/-- The start of the tags of the core schema. -/
def corePrefix : Text := "tag:yaml.org,2002:".toList

/-- Whether a scalar names the null value. -/
def isNull (t : Text) : Bool :=
  [['n', 'u', 'l', 'l'], ['N', 'u', 'l', 'l'], ['N', 'U', 'L', 'L'], ['~']].contains t

/-- The truth value that a scalar names. -/
def bool? (t : Text) : Option Bool :=
  if ["true".toList, "True".toList, "TRUE".toList].contains t then some true
  else if ["false".toList, "False".toList, "FALSE".toList].contains t then some false
  else none

/-- The value of a digit in bases up to sixteen. -/
def digit? (base : Nat) (c : Char) : Option Nat := (Json.hexDigit? c).filter (· < base)

/-- The number that digits write, one at least. -/
def digits? (base : Nat) (t : Text) : Option Nat :=
  if t = [] then none
  else t.foldlM (fun n c => (digit? base c).map fun d => base * n + d) 0

/-- A text without a plus sign before it. -/
def dropPlus : Text → Text
  | '+' :: t => t
  | t => t

/-- The text of an integer without its sign and the mark of its base, and the base. -/
def baseOf : Text → Nat × Text
  | '0' :: 'x' :: t => (16, t)
  | '0' :: 'o' :: t => (8, t)
  | '0' :: 'b' :: t => (2, t)
  | t => (10, t)

/-- Whether a text is a zero and further digits, perhaps after a sign. Such a text is no number. -/
def hasLeadingZero (t : Text) : Bool :=
  let digits := match t with
    | '-' :: t => t
    | t => dropPlus t
  match digits with
  | '0' :: d :: ds => (d :: ds).all Text.isAsciiDigit
  | _ => false

/-- The integer that a plain scalar writes, of any size. -/
def integer? (t : Text) : Option Int :=
  match t with
  | '-' :: u =>
    let (base, digits) := baseOf u
    if base = 10 ∧ hasLeadingZero t then none
    else (digits? base digits).map fun n => -(n : Int)
  | _ =>
    let (base, digits) := baseOf (dropPlus t)
    if base = 10 ∧ hasLeadingZero t then none
    else (digits? base digits).map fun n => (n : Int)

/-- The floating-point number that digits with a point or an exponent write, unless it is too
large. -/
def decimal? (negative : Bool) (t : Text) : Option Binary64 := do
  let whole := t.takeWhile Text.isAsciiDigit
  let rest := t.dropWhile Text.isAsciiDigit
  let (fraction, rest) := match rest with
    | '.' :: rest => (rest.takeWhile Text.isAsciiDigit, rest.dropWhile Text.isAsciiDigit)
    | rest => ([], rest)
  if whole = [] ∧ fraction = [] then none
  let (exponent, rest) ← Json.readExponent? rest
  if rest ≠ [] then none
  let (down, places) := exponent.getD (false, [])
  let power : Int := if down then -(Text.decimalValue places : Int) else Text.decimalValue places
  Binary64.ofDecimal? negative (Text.decimalValue (whole ++ fraction)) (power - fraction.length)

/-- The floating-point value of a plain scalar, where infinities and undefined numbers, which JSON
does not have, are null. -/
def float? (t : Text) : Option Json :=
  let unsigned := dropPlus t
  if [".inf".toList, ".Inf".toList, ".INF".toList].contains unsigned ||
      ["-.inf".toList, "-.Inf".toList, "-.INF".toList, ".nan".toList, ".NaN".toList,
        ".NAN".toList].contains t then
    some .null
  else
    let x := match unsigned with
      | '-' :: u => if t.head? = some '+' then none else decimal? true u
      | '+' :: u => if t.head? = some '+' then none else decimal? false u
      | u => decimal? false u
    x.map fun x => .number (.float x)

/-- The value of an integer, which must fit 64 bits with or without sign. Larger ones are refused
up to 128 bits. -/
def integerValue? (n : Int) : Option Json :=
  if -(Nat.pow 2 63 : Int) ≤ n ∧ n < Nat.pow 2 64 then some (.number (.integer n)) else none

/-- Whether an integer fits 128 bits with or without sign. -/
def fitsWide (n : Int) : Bool := decide (-(Nat.pow 2 127 : Int) ≤ n) && decide (n < Nat.pow 2 128)

/-- The value of a plain scalar without a tag. -/
def plainValue? (t : Text) : Option Json :=
  if t = [] ∨ isNull t then some .null
  else
    match bool? t with
    | some b => some (.bool b)
    | none =>
      match (integer? t).filter fitsWide with
      | some n => integerValue? n
      | none =>
        if hasLeadingZero t then some (.string t)
        else some ((float? t).getD (.string t))

/-- Whether a tag is local to its document. -/
def isLocal : Option Text → Bool
  | some ('!' :: _) => true
  | _ => false

/-- The value of a scalar. -/
def scalarValue? (tag : Option Text) (t : Text) (plain : Bool) : Option Json :=
  match tag with
  | none => if plain then plainValue? t else some (.string t)
  | some tag =>
    if tag = corePrefix ++ "bool".toList then (bool? t).map .bool
    else if tag = corePrefix ++ "int".toList then (integer? t).bind integerValue?
    else if tag = corePrefix ++ "float".toList then float? t
    else if tag = corePrefix ++ "null".toList then if isNull t then some .null else none
    else some (.string t)

/-- A document: its root, and the last node of each anchor number. -/
structure Document where
  root : Option Node
  anchored : List (Nat × Node)
  size : Nat

namespace Node

mutual

/-- The nodes with an anchor, from the last to the first. -/
def anchored : Node → List (Nat × Node)
  | .scalar p t plain => (p.anchor.map fun n => (n, Node.scalar p t plain)).toList
  | .sequence p items =>
    anchoredItems items ++ (p.anchor.map fun n => (n, Node.sequence p items)).toList
  | .mapping p members =>
    anchoredMembers members ++ (p.anchor.map fun n => (n, Node.mapping p members)).toList
  | .alias _ => []

/-- The nodes with an anchor in a list, from the last to the first. -/
def anchoredItems : List Node → List (Nat × Node)
  | [] => []
  | n :: ns => anchoredItems ns ++ anchored n

/-- The nodes with an anchor in the members of a mapping, from the last to the first. -/
def anchoredMembers : List (Node × Node) → List (Nat × Node)
  | [] => []
  | (k, v) :: ms => anchoredMembers ms ++ anchored v ++ anchored k

end

mutual

/-- How many begins and ends of nodes there are; a scalar and an alias count once. -/
def size : Node → Nat
  | .scalar _ _ _ => 1
  | .sequence _ items => sizeItems items + 2
  | .mapping _ members => sizeMembers members + 2
  | .alias _ => 1

/-- The size of a list of nodes. -/
def sizeItems : List Node → Nat
  | [] => 0
  | n :: ns => size n + sizeItems ns

/-- The size of the members of a mapping. -/
def sizeMembers : List (Node × Node) → Nat
  | [] => 0
  | (k, v) :: ms => size k + size v + sizeMembers ms

end

end Node

namespace Document

/-- The document that a text writes. -/
def parse? (cs : Text) : Option Document := do
  let root ← Node.ofTokens? (← tokens? cs)
  match root with
  | none => return ⟨none, [], 1⟩
  | some n => return ⟨root, n.anchored, n.size⟩

/-- The node that an alias stands for. -/
def target? (d : Document) : Node → Option Node
  | .alias n => (d.anchored.find? fun a => a.1 = n).map Prod.snd
  | n => some n

/-- A step that counts the aliases that may still be followed. -/
abbrev Following := StateT Nat Option

/-- Follows an alias, as long as that is allowed. -/
def follow (d : Document) (n : Node) : Following Node := do
  match n with
  | .alias _ =>
    match ← get with
    | 0 => failure
    | k + 1 => set k
  | _ => pure ()
  match d.target? n with
  | some n => return n
  | none => failure

/-- The key that a node stands for, which must be a scalar. -/
def key (d : Document) (n : Node) : Following Text := do
  match ← d.follow n with
  | .scalar _ t _ => return t
  | _ => failure

/-- The value of a node whose collections are nested no deeper than a number says. -/
def value (d : Document) : Nat → Node → Following Json
  | depth, n => do
    match depth, ← d.follow n with
    | _, .scalar p t plain =>
      if isLocal p.tag then failure
      match scalarValue? p.tag t plain with
      | some v => return v
      | none => failure
    | depth + 1, .sequence p items =>
      if isLocal p.tag then failure
      return .array (← items.mapM fun item => value d depth item)
    | depth + 1, .mapping p members =>
      if isLocal p.tag then failure
      let pairs ← members.mapM fun m => do
        let k ← d.key m.1
        let v ← value d depth m.2
        return (k, v)
      return .object (Json.sortMembers pairs)
    | _, _ => failure

/-- How deep collections may be nested. -/
def maxDepth : Nat := 128

/-- How many aliases may be followed in a document. -/
def maxAliases (d : Document) : Nat := 100 * d.size

/-- The value of a document; a stream without a document is null. -/
def toJson? (d : Document) : Option Json :=
  match d.root with
  | none => some .null
  | some n => ((d.value maxDepth n).run d.maxAliases).map Prod.fst

end Document

/-- The value of a YAML text. -/
def read? (cs : Text) : Option Json := (Document.parse? cs).bind Document.toJson?

end MustachePath.Yaml
