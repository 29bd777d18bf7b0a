import MustachePath.Text.Quoted

/-!
# Options

The settings under which tags are judged and rewritten. Words and keys are ascending lists
without repetitions. Options are usable when the accessor has the form of an identifier.
-/

namespace MustachePath

/-- What a strict run does with a malformed tag. -/
inductive InvalidPolicy where
  | ignore
  | reject
deriving DecidableEq, Repr

/-- The settings of a run. The accessor is the function that looks up extended paths, widget
helpers take the current context when they stand alone, reserved words are never looked up, and
shaping keys make even a plain path go through the accessor. -/
structure Options where
  accessor : Text
  widgetHelpers : List Text
  reservedWords : List Text
  shapingKeys : List Text
  invalidPolicy : InvalidPolicy
deriving DecidableEq, Repr

/-- The settings that hold where none are given. -/
def Options.default : Options where
  accessor := "convertFromDotNotation".toList
  widgetHelpers := Text.sortedSet <|
    ["table", "list", "flow-sequence", "related-nodes", "json-viewer",
      "block-architecture"].map String.toList
  reservedWords := Text.sortedSet <|
    ["this", ".", "true", "false", "null", "undefined", "lookup", "@index", "@key", "@first",
      "@last", "@root"].map String.toList
  shapingKeys := Text.sortedSet <| ["filter", "sort", "limit"].map String.toList
  invalidPolicy := .ignore

/-- Whether a character may begin an accessor's name: a letter of ASCII, an underscore or a dollar
sign. -/
def isAccessorStart (c : Char) : Bool := c.isAlpha || c == '_' || c == '$'

/-- Whether a text is an accessor's name. After the first character digits and hyphens may stand. -/
def isAccessorName : Text → Bool
  | [] => false
  | c :: cs => isAccessorStart c && cs.all fun d => isAccessorStart d || d.isDigit || d == '-'

/-- Whether the options can be used. -/
def Options.isValid (o : Options) : Bool := isAccessorName o.accessor

/-- Why options are refused. A file or a text that cannot be read carries no further detail. -/
inductive OptionsError where
  | invalidAccessorName (name : Text)
  | unreadableFile (path cause : Text)
  | malformedJson
  | malformedYaml
deriving DecidableEq, Repr

/-- The wording of an error. The details of a malformed text are left open after the colon. -/
def OptionsError.message : OptionsError → Text
  | .invalidAccessorName name => "invalid accessor name: ".toList ++ Text.quoted name
  | .unreadableFile path cause => "failed to read ".toList ++ path ++ ": ".toList ++ cause
  | .malformedJson => "failed to parse options as JSON: ".toList
  | .malformedYaml => "failed to parse options as YAML: ".toList

/-- The options themselves if they can be used. -/
def Options.checked (o : Options) : Except OptionsError Options :=
  if o.isValid then .ok o else .error (.invalidAccessorName o.accessor)

end MustachePath
