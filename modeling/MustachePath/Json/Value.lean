import MustachePath.Json.Decimal

/-!
# JSON values

Numbers are integers of 64 bits, with or without sign, or floating-point numbers. The members of an
object are a list; in canonical form it ascends by key and holds every key once, and of two members
with one key the later one counts.
-/

namespace MustachePath

namespace Json

/-- A number of a JSON value. -/
inductive Number where
  | integer (n : Int)
  | float (x : Binary64)
deriving DecidableEq, Repr

/-- The floating-point number nearest to a number. -/
def Number.toBinary64 : Number → Binary64
  | .integer n => .ofInt n
  | .float x => x

end Json

/-- A JSON value. -/
inductive Json where
  | null
  | bool (b : Bool)
  | number (n : Json.Number)
  | string (text : Text)
  | array (items : List Json)
  | object (members : List (Text × Json))
deriving Repr

namespace Json

/-- Adds a member at its place in the order of keys. A member with the same key is replaced. -/
def insertMember (key : Text) (value : Json) : List (Text × Json) → List (Text × Json)
  | [] => [(key, value)]
  | m :: ms =>
    match Text.compare key m.1 with
    | .lt => (key, value) :: m :: ms
    | .eq => (key, value) :: ms
    | .gt => m :: insertMember key value ms

/-- The members of a list in the order of keys, the last of each key. -/
def sortMembers (members : List (Text × Json)) : List (Text × Json) :=
  members.foldl (fun sorted m => insertMember m.1 m.2 sorted) []

mutual

/-- The value with the members of all objects in canonical form. -/
def canonical : Json → Json
  | null => null
  | bool b => bool b
  | number n => number n
  | string t => string t
  | array items => array (canonicalItems items)
  | object members => object (sortMembers (canonicalMembers members))

/-- The canonical forms of a list of values. -/
def canonicalItems : List Json → List Json
  | [] => []
  | v :: vs => canonical v :: canonicalItems vs

/-- The members of an object with their values in canonical form. -/
def canonicalMembers : List (Text × Json) → List (Text × Json)
  | [] => []
  | (k, v) :: ms => (k, canonical v) :: canonicalMembers ms

end

/-- The value of a member of an object. -/
def member? (key : Text) : Json → Option Json
  | object members => (members.find? fun m => m.1 = key).map Prod.snd
  | _ => none

/-- The value that a path of keys leads to through objects. -/
def field? (value : Json) : List Text → Option Json
  | [] => some value
  | key :: keys => (value.member? key).bind fun v => v.field? keys

end Json

end MustachePath
