import MustachePath.Data.Predicate

/-!
# Paths into data

A path is a list of steps: keys, indexes, and comparisons that choose the first item that fulfils
them. It is written with dots and brackets, and what stands in brackets is a comparison, an index or
a key. Quotes hide a closing bracket.
-/

namespace MustachePath

/-- One step of a path. -/
inductive Step where
  | key (name : Text)
  | index (n : Nat)
  | predicate (p : Predicate)
deriving DecidableEq, Repr

/-- A path is the list of its steps. -/
abbrev Path := List Step

/-- Divides a text at the first closing bracket outside of quotes. The text begins inside the given
quote, if there is one; inside a quote a backslash hides the next character. -/
def bracketEnd? : Option Char → Text → Option (Text × Text)
  | _, [] => none
  | some quote, c :: cs =>
    if c = '\\' then
      match cs with
      | [] => none
      | d :: cs => (bracketEnd? (some quote) cs).map fun p => (c :: d :: p.1, p.2)
    else
      (bracketEnd? (if c = quote then none else some quote) cs).map fun p => (c :: p.1, p.2)
  | none, c :: cs =>
    if c = ']' then some ([], cs)
    else (bracketEnd? (if isQuote c then some c else none) cs).map fun p => (c :: p.1, p.2)

theorem bracketEnd?_eq_some {quote : Option Char} {cs a r : Text}
    (h : bracketEnd? quote cs = some (a, r)) : cs = a ++ ']' :: r := by
  fun_induction bracketEnd? quote cs generalizing a with
  | case1 => simp at h
  | case2 => simp at h
  | case3 q d cs ih =>
    simp only [Option.map_eq_some_iff, Prod.mk.injEq, Prod.exists] at h
    obtain ⟨b, s, hb, rfl, rfl⟩ := h
    simp [ih hb]
  | case4 q c cs hc ih =>
    simp only [Option.map_eq_some_iff, Prod.mk.injEq, Prod.exists] at h
    obtain ⟨b, s, hb, rfl, rfl⟩ := h
    simp [ih hb]
  | case5 cs =>
    simp only [Option.some.injEq, Prod.mk.injEq] at h
    obtain ⟨rfl, rfl⟩ := h
    simp
  | case6 c cs hc ih =>
    simp only [Option.map_eq_some_iff, Prod.mk.injEq, Prod.exists] at h
    obtain ⟨b, s, hb, rfl, rfl⟩ := h
    simp [ih hb]

/-- The step that the text between brackets stands for. The whole path is named when the brackets
are empty. -/
def bracketStep (path inner : Text) : Except PathError Step :=
  let inner := Text.trim inner
  if inner = [] then .error (.emptySegment path)
  else do
    let body := Text.literalValue inner
    match ← Predicate.parse body with
    | some p => return .predicate p
    | none =>
      if !Text.isLiteral inner && body.all Text.isAsciiDigit then
        match Text.digits64? body with
        | some n => return .index n
        | none => throw (.invalidIndex inner)
      else return .key body

/-- Whether a character may stand in a key without brackets. -/
def isBareKeyChar (c : Char) : Bool := c ≠ '.' && c ≠ '['

/-- The steps that a text writes, as a part of a path. The flag says whether a step has to come
next, as at the beginning and after a dot. -/
def stepsFrom (path : Text) (expecting : Bool) (cs : Text) : Except PathError Path :=
  match cs with
  | [] => if expecting then .error (.emptySegment path) else .ok []
  | '[' :: cs =>
    match _h : bracketEnd? none cs with
    | none => .error (.unclosedBracket path)
    | some (inner, rest) => do
      let step ← bracketStep path inner
      return step :: (← stepsFrom path false rest)
  | '.' :: cs =>
    if expecting then .error (.emptySegment path) else stepsFrom path true cs
  | c :: cs => do
    let rest ← stepsFrom path false (cs.dropWhile isBareKeyChar)
    return .key (c :: cs.takeWhile isBareKeyChar) :: rest
termination_by cs.length
decreasing_by
  · simp [bracketEnd?_eq_some _h]
    omega
  · simp
  · have := (List.dropWhile_sublist isBareKeyChar (l := cs)).length_le
    simp only [List.length_cons]
    omega

/-- Leaves out a first step to the context itself. -/
def Path.dropContext : Path → Path
  | .key ['t', 'h', 'i', 's'] :: steps => steps
  | steps => steps

/-- Reads a path. The empty path and a lone dot lead nowhere further. -/
def Path.read (cs : Text) : Except PathError Path :=
  let path := Text.trim cs
  if path = [] ∨ path = ['.'] then .ok []
  else (stepsFrom path true path).map Path.dropContext

/-- The value that a step leads to. Arrays take keys that read as an index, and objects take an
index as a key; comparisons go through the items of an array or the values of an object. -/
def Step.follow? (value : Json) (step : Step) : Option Json :=
  match step, value with
  | .key name, .object members => (Json.object members).member? name
  | .key name, .array items => (Text.unsigned64? name).bind fun n => items[n]?
  | .index n, .object members => (Json.object members).member? (Text.ofNat n)
  | .index n, .array items => items[n]?
  | .predicate p, .object members => (members.map Prod.snd).find? p.holds
  | .predicate p, .array items => items.find? p.holds
  | _, _ => none

/-- The value that the steps of a path lead to one after another. -/
def Path.follow? (value : Json) (path : Path) : Option Json := path.foldlM Step.follow? value

end MustachePath
