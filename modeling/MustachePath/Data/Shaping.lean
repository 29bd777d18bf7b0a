import MustachePath.Data.Path
import MustachePath.Text.Quoted

/-!
# Shaping arrays

An array is filtered by a comparison, sorted by a field, and cut to a number of items, in this
order. The sort is stable, and items without the field come last in both directions. Numbers are
sorted by value, and all else by the text it is compared by.
-/

namespace MustachePath

/-- The field to sort by, and the direction. -/
structure SortKey where
  field : Text
  descending : Bool
deriving DecidableEq, Repr

/-- What is done to an array. -/
structure Shaping where
  filter : Option Predicate
  sort : Option SortKey
  limit : Option Nat
deriving DecidableEq, Repr

/-- Why an argument for shaping is refused, with the argument. -/
inductive ShapingError where
  | invalidFilter (argument : Text)
  | invalidSort (argument : Text)
  | invalidLimit (argument : Text)
deriving DecidableEq, Repr

/-- The wording of an error. -/
def ShapingError.message : ShapingError → Text
  | .invalidFilter argument =>
    "invalid filter expression (expected field==value or field!=value): ".toList ++ argument
  | .invalidSort argument => "invalid sort key: ".toList ++ Text.quoted argument
  | .invalidLimit argument =>
    "invalid limit (expected a non-negative integer): ".toList ++ argument

/-- Reads the field to sort by. A hyphen before it asks for descending order. -/
def SortKey.parse? (argument : Text) : Option SortKey :=
  let key : SortKey :=
    match Text.trim argument with
    | '-' :: field => ⟨field, true⟩
    | field => ⟨field, false⟩
  if key.field = [] then none else some key

namespace Shaping

/-- Nothing is done. -/
def none : Shaping := ⟨.none, .none, .none⟩

/-- Takes one more argument into account. Later arguments replace earlier ones, and keys that do
not shape are ignored. -/
def addArgument (s : Shaping) (key argument : Text) : Except ShapingError Shaping :=
  if key = "filter".toList then
    match Predicate.parse argument with
    | .ok (some p) => .ok { s with filter := some p }
    | _ => .error (.invalidFilter argument)
  else if key = "sort".toList then
    match SortKey.parse? argument with
    | some k => .ok { s with sort := some k }
    | .none => .error (.invalidSort argument)
  else if key = "limit".toList then
    match Text.unsigned64? (Text.trim argument) with
    | some n => .ok { s with limit := some n }
    | .none => .error (.invalidLimit argument)
  else .ok s

/-- The shaping that pairs of keys and arguments ask for. -/
def ofArguments (arguments : List (Text × Text)) : Except ShapingError Shaping :=
  arguments.foldlM (fun s a => s.addArgument a.1 a.2) none

end Shaping

/-- The order of two values of a field. -/
def valueOrder : Json → Json → Ordering
  | .number a, .number b => Binary64.compare a.toBinary64 b.toBinary64
  | a, b => Text.compare a.text b.text

/-- The order of two items by a field. -/
def SortKey.itemOrder (k : SortKey) (a b : Json) : Ordering :=
  match Predicate.lookup a k.field, Predicate.lookup b k.field with
  | some x, some y => if k.descending then (valueOrder x y).swap else valueOrder x y
  | some _, none => .lt
  | none, some _ => .gt
  | none, none => .eq

/-- Items sorted by a field; items that the field does not tell apart keep their order. -/
def SortKey.sortItems (k : SortKey) (items : List Json) : List Json :=
  items.mergeSort fun a b => k.itemOrder a b != .gt

namespace Shaping

/-- Shapes the items of an array. -/
def applyItems (s : Shaping) (items : List Json) : List Json :=
  let kept := match s.filter with
    | some p => items.filter p.holds
    | .none => items
  let sorted := match s.sort with
    | some k => k.sortItems kept
    | .none => kept
  match s.limit with
  | some n => sorted.take n
  | .none => sorted

/-- Shapes a value. Anything but an array stays as it is. -/
def apply (s : Shaping) : Json → Json
  | .array items => .array (s.applyItems items)
  | v => v

end Shaping

/-- Follows a path from a value and shapes what it leads to. -/
def resolve (context : Json) (path : Text) (shaping : Shaping) : Except PathError (Option Json) :=
  (Path.read path).map fun steps => (steps.follow? context).map shaping.apply

end MustachePath
