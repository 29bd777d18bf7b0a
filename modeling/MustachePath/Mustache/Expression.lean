import MustachePath.Mustache.Token

/-!
# What the tokens of a tag say

A tag holds a path, or the call of a helper with the path that the helper works on and further
arguments. A helper without a path works on the current context.
-/

namespace MustachePath

/-- The current context, as a path. -/
def contextWord : Text := ['t', 'h', 'i', 's']

/-- The meaning of a list of tokens. Arguments are kept as one text, separated by spaces. -/
inductive Expression where
  /-- No token at all. -/
  | empty
  /-- A path alone. -/
  | path (path : Text)
  /-- A helper that works on the current context. -/
  | onContext (helper : Text) (arguments : Option Text)
  /-- A helper that works on a path. -/
  | onPath (helper path : Text) (arguments : Option Text)
deriving DecidableEq, Repr

/-- Reads tokens as a path or a helper call. A lone token is a helper if it is one of the widget
helpers, and a helper that is directly followed by a pair works on the current context. -/
def Expression.ofTokens (widgetHelpers : List Text) : List Text → Expression
  | [] => .empty
  | [token] => if widgetHelpers.contains token then .onContext token none else .path token
  | helper :: second :: rest =>
    if isPairShaped second then .onContext helper (some (Text.joinSpaced (second :: rest)))
    else .onPath helper second (if rest = [] then none else some (Text.joinSpaced rest))

end MustachePath
