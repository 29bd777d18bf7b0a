import MustachePath.Json.Value

/-!
# JSON text

Values are written without white space, or over several lines with two spaces of indentation for
each level. Only quotes, backslashes and controls are escaped.
-/

namespace MustachePath.Json

/-- A character as it stands in a string. -/
def writeChar (c : Char) : Text :=
  if c = '"' then ['\\', '"']
  else if c = '\\' then ['\\', '\\']
  else if c = '\n' then ['\\', 'n']
  else if c = '\r' then ['\\', 'r']
  else if c = '\t' then ['\\', 't']
  else if c.toNat = 8 then ['\\', 'b']
  else if c.toNat = 12 then ['\\', 'f']
  else if c.toNat < 32 then
    ['\\', 'u', '0', '0', Nat.digitChar (c.toNat / 16), Nat.digitChar (c.toNat % 16)]
  else [c]

/-- A string with its quotes. -/
def writeString (t : Text) : Text := '"' :: t.flatMap writeChar ++ ['"']

/-- Floating-point numbers are positional from five places after the point up to sixteen digits
before it. -/
def numberFormat : Binary64.Format := ⟨-5, 15⟩

/-- A number. -/
def writeNumber : Number → Text
  | .integer n => (if n < 0 then ['-'] else []) ++ Text.ofNat n.natAbs
  | .float x => (if x.negative then ['-'] else []) ++ numberFormat.write x.shortest

mutual

/-- A value without white space. -/
def write : Json → Text
  | null => "null".toList
  | bool true => "true".toList
  | bool false => "false".toList
  | number n => writeNumber n
  | string t => writeString t
  | array items => '[' :: Text.joinWith [','] (writeItems items) ++ [']']
  | object members => '{' :: Text.joinWith [','] (writeMembers members) ++ ['}']

/-- Values without white space, one by one. -/
def writeItems : List Json → List Text
  | [] => []
  | v :: vs => write v :: writeItems vs

/-- The members of an object without white space, one by one. -/
def writeMembers : List (Text × Json) → List Text
  | [] => []
  | (k, v) :: ms => (writeString k ++ ':' :: write v) :: writeMembers ms

end

/-- The start of a line at a level. -/
def indentation (level : Nat) : Text := '\n' :: List.replicate (2 * level) ' '

/-- The parts of an array or an object on lines of their own, between brackets. -/
def bracketLines (opening closing : Char) (level : Nat) : List Text → Text
  | [] => [opening, closing]
  | parts =>
    opening :: indentation (level + 1) ++
      Text.joinWith (',' :: indentation (level + 1)) parts ++ indentation level ++ [closing]

mutual

/-- A value over several lines, as part of a value at a level. -/
def writeLines (level : Nat) : Json → Text
  | null => "null".toList
  | bool true => "true".toList
  | bool false => "false".toList
  | number n => writeNumber n
  | string t => writeString t
  | array items => bracketLines '[' ']' level (writeItemLines (level + 1) items)
  | object members => bracketLines '{' '}' level (writeMemberLines (level + 1) members)

/-- Values over several lines, one by one. -/
def writeItemLines (level : Nat) : List Json → List Text
  | [] => []
  | v :: vs => writeLines level v :: writeItemLines level vs

/-- The members of an object over several lines, one by one. -/
def writeMemberLines (level : Nat) : List (Text × Json) → List Text
  | [] => []
  | (k, v) :: ms =>
    (writeString k ++ ':' :: ' ' :: writeLines level v) :: writeMemberLines level ms

end

end MustachePath.Json
