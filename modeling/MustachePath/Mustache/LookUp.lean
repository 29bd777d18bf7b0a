import MustachePath.Mustache.Markers

/-!
# Calls of the accessor

A path that goes through the accessor is passed as a quoted literal after the current context.
Quotes inside the path are escaped unless a backslash escapes them already.
-/

namespace MustachePath

/-- Puts a backslash before every double quote that is not escaped yet. The flag says whether the
character before the text escapes the first one. -/
def protectQuotesFrom (escaped : Bool) : Text → Text
  | [] => []
  | c :: cs =>
    if c = '"' ∧ escaped = false then '\\' :: c :: protectQuotesFrom false cs
    else c :: protectQuotesFrom (c = '\\' && !escaped) cs

/-- Puts a backslash before every double quote that is not escaped yet. -/
def protectQuotes (path : Text) : Text := protectQuotesFrom false path

/-- A path for the accessor with the arguments that stood beside it. -/
structure LookUp where
  path : Text
  pairs : List Text
  positional : List Text
deriving DecidableEq, Repr

namespace LookUp

/-- The path as a quoted literal. -/
def literal (call : LookUp) : Text := '"' :: protectQuotes call.path ++ ['"']

/-- The call as a group in parentheses, with the pairs as further arguments. -/
def group (accessor : Text) (call : LookUp) : Text :=
  '(' :: Text.joinSpaced (accessor :: ['t', 'h', 'i', 's'] :: call.literal :: call.pairs) ++ [')']

/-- The arguments that stay with the helper: the positional ones and then the pairs. -/
def helperArguments (call : LookUp) : Text :=
  Text.joinSpaced (call.positional ++ call.pairs)

end LookUp

end MustachePath
