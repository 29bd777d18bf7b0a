import MustachePath.Text.Basic

/-!
# Quoted literals

A literal stands between two equal quotes, double or single. Inside it a backslash stands for
nothing but takes the next character as it is.
-/

namespace MustachePath.Text

/-- Whether a text begins and ends with a given quote, one at each end. -/
def isDelimitedBy (quote : Char) (cs : Text) : Bool :=
  2 ≤ cs.length && cs.head? == some quote && cs.getLast? == some quote

/-- Whether a text stands between two equal quotes. -/
def isLiteral (cs : Text) : Bool := isDelimitedBy '"' cs || isDelimitedBy '\'' cs

/-- A text without the backslashes that take the next character as it is. A backslash at the end is
dropped too. -/
def dropEscapes : Text → Text
  | [] => []
  | ['\\'] => []
  | '\\' :: c :: cs => c :: dropEscapes cs
  | c :: cs => c :: dropEscapes cs

/-- The text that a literal stands for; any other text stands for itself. -/
def literalValue (cs : Text) : Text :=
  if isLiteral cs then dropEscapes (cs.drop 1).dropLast else cs

end MustachePath.Text
