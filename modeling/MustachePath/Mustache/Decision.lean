import MustachePath.Mustache.LookUp
import MustachePath.Mustache.NativePath
import MustachePath.Options.Basic
import MustachePath.Text.Literal

/-!
# Decisions about tags

Every tag is a control tag, is left as written, is rewritten, or is malformed. A path that the
template language understands by itself is left; any other path becomes a call of the accessor.
Pairs among the arguments go to the accessor and to the helper, all other arguments to the helper
alone.
-/

namespace MustachePath

/-- Why a tag is left as written. -/
inductive Exemption where
  | empty
  | nativePath
  | reservedContext
  | explicitThis
  | subexpressionOrRelative
  | literal
deriving DecidableEq, Repr

/-- The short name of a reason in a report. -/
def Exemption.code : Exemption → Text
  | .empty => "empty".toList
  | .nativePath => "native-handlebars-path".toList
  | .reservedContext => "reserved-context".toList
  | .explicitThis => "explicit-this".toList
  | .subexpressionOrRelative => "subexpression-or-relative".toList
  | .literal => "literal".toList

/-- Why a tag is malformed. -/
inductive Defect where
  | noHelper
deriving DecidableEq, Repr

/-- The short name of a reason in a report. -/
def Defect.code : Defect → Text
  | .noHelper => "no-helper".toList

/-- What becomes of a tag. A rewritten tag is replaced by a text, braces included. -/
inductive Decision where
  | control
  | leave (reason : Exemption)
  | rewrite (text : Text)
  | invalid (reason : Defect)
deriving DecidableEq, Repr

namespace Decision

/-- The short name of a kind of decision. -/
def kind : Decision → Text
  | control => "control".toList
  | leave _ => "leave".toList
  | rewrite _ => "rewrite".toList
  | invalid _ => "invalid".toList

/-- The short name of the reason for a decision, where it has one. -/
def reasonCode : Decision → Option Text
  | control => none
  | leave r => some r.code
  | rewrite _ => none
  | invalid r => some r.code

/-- The replacement of a rewritten tag. -/
def replacement : Decision → Option Text
  | rewrite text => some text
  | _ => none

end Decision

/-- Whether a tag's text closes a block, includes a partial, is a comment, or begins with the word
`else`. -/
def isControl : Text → Bool
  | '/' :: _ => true
  | '>' :: _ => true
  | '!' :: _ => true
  | 'e' :: 'l' :: 's' :: 'e' :: cs => cs.head?.all isBlank
  | _ => false

/-- Whether a path is a group in parentheses. -/
def isGroup (path : Text) : Bool := path.head? == some '(' && path.getLast? == some ')'

/-- Whether a path starts from the current or the enclosing context. -/
def isRelative (path : Text) : Bool :=
  Text.startsWith ['.', '.', '/'] path || Text.startsWith ['.', '/'] path

/-- What becomes of a path: it stays as written, or the accessor looks it up. -/
inductive PathUse where
  | keep (reason : Exemption)
  | lookUp (call : LookUp)
deriving DecidableEq, Repr

/-- Decides about a path, given the arguments beside it. -/
def pathUse (o : Options) (path : Text) (arguments : Option Text) : PathUse :=
  let tokens := tokenize (arguments.getD [])
  if isGroup path || isRelative path then .keep .subexpressionOrRelative
  else if isContextPath path then .keep .explicitThis
  else if o.reservedWords.contains path then .keep .reservedContext
  else if Text.isLiteral path then .keep .literal
  else if isNative path && !(tokens.filterMap pairKey?).any o.shapingKeys.contains then
    .keep .nativePath
  else .lookUp ⟨path, tokens.filter isPairShaped, tokens.filter fun t => !isPairShaped t⟩

/-- The clause for block parameters that a text holds after white space at its front, if nothing
but white space follows the clause: the word `as`, and names between bars. -/
def blockClause? (cs : Text) : Option Text :=
  match Text.trimStart cs with
  | 'a' :: 's' :: r =>
    match Token.readWhile? isBlank r with
    | some (space, '|' :: names) =>
      match Token.readUntil? '|' '|' names with
      | some (inner, r) =>
        if r.all isBlank then some ('a' :: 's' :: space ++ '|' :: inner) else none
      | none => none
    | _ => none
  | _ => none

/-- Divides the text of a block's opening tag before the white space that precedes the first clause
for block parameters. -/
def splitBlockClause : Text → Text × Option Text
  | [] => ([], none)
  | c :: cs =>
    match if isBlank c then blockClause? (c :: cs) else none with
    | some clause => ([], some clause)
    | none =>
      let split := splitBlockClause cs
      (c :: split.1, split.2)

/-- Decides about a block's opening tag by its text after the sign that opens the block. -/
def Decision.ofBlock (o : Options) (m : Markers) (sign : Char) (text : Text) : Decision :=
  let split := splitBlockClause text
  let settle (helper path : Text) (arguments : Option Text) : Decision :=
    match pathUse o path arguments with
    | .keep reason => .leave reason
    | .lookUp call =>
      .rewrite <| m.wrap
        [sign :: helper, call.group o.accessor, call.helperArguments, split.2.getD []]
  match Expression.ofTokens o.widgetHelpers (tokenize split.1) with
  | .empty => .invalid .noHelper
  | .path _ => .invalid .noHelper
  | .onContext helper arguments => settle helper contextWord arguments
  | .onPath helper path arguments => settle helper path arguments

/-- Decides about a tag that is neither a control tag nor opens a block, by its text. -/
def Decision.ofExpression (o : Options) (m : Markers) (text : Text) : Decision :=
  match Expression.ofTokens o.widgetHelpers (tokenize text) with
  | .empty => .leave .empty
  | .path path =>
    match pathUse o path none with
    | .keep reason => .leave reason
    | .lookUp call => .rewrite (m.wrap [o.accessor, contextWord, call.literal])
  | .onContext helper arguments =>
    .rewrite (m.wrap [helper, contextWord, arguments.getD []])
  | .onPath helper path arguments =>
    match pathUse o path arguments with
    | .keep reason => .leave reason
    | .lookUp call =>
      .rewrite (m.wrap [helper, call.group o.accessor, call.helperArguments])

/-- Decides about a tag by its text without the braces and without white space around it. -/
def Decision.ofBody (o : Options) (body : Text) : Decision :=
  let stripped := Markers.strip body
  if isControl stripped.1 then .control
  else
    match stripped.1 with
    | '#' :: text => Decision.ofBlock o stripped.2 '#' text
    | '^' :: text => Decision.ofBlock o stripped.2 '^' text
    | text => Decision.ofExpression o stripped.2 text

/-- Decides about a tag. -/
def Tag.decision (o : Options) (t : Tag) : Decision := Decision.ofBody o t.body

end MustachePath
