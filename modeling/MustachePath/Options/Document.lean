import MustachePath.Json.Reader
import MustachePath.Options.Basic

/-!
# Options in documents

A document gives a value to some of the settings, each once at most and none under an unknown name;
the others keep their defaults. JSON may also list the values in their fixed order. How YAML is read
is left to a reader that is given.
-/

namespace MustachePath

/-- The settings by name, in their fixed order. -/
inductive Setting where
  | accessor
  | widgetHelpers
  | reservedWords
  | shapingKeys
  | invalidPolicy
deriving DecidableEq, Repr

namespace Setting

/-- All settings in order. -/
def all : List Setting := [accessor, widgetHelpers, reservedWords, shapingKeys, invalidPolicy]

/-- The name of a setting in a document. -/
def name : Setting → Text
  | accessor => "accessor".toList
  | widgetHelpers => "widget-helpers".toList
  | reservedWords => "reserved-words".toList
  | shapingKeys => "shaping-keys".toList
  | invalidPolicy => "invalid-policy".toList

/-- The setting with a name. -/
def named? (t : Text) : Option Setting := all.find? fun s => s.name = t

end Setting

/-- The policy with a name. -/
def InvalidPolicy.named? (t : Text) : Option InvalidPolicy :=
  if t = "ignore".toList then some .ignore
  else if t = "reject".toList then some .reject
  else none

/-- How the values of settings are read from the values of a kind of document. -/
structure SettingReader (α : Type) where
  text? : α → Option Text
  texts? : α → Option (List Text)
  policy? : α → Option InvalidPolicy

namespace Options

variable {α : Type}

/-- The options with a value for one of the settings. -/
def set? (r : SettingReader α) (o : Options) (s : Setting) (v : α) : Option Options :=
  match s with
  | .accessor => (r.text? v).map fun t => { o with accessor := t }
  | .widgetHelpers => (r.texts? v).map fun ts => { o with widgetHelpers := Text.sortedSet ts }
  | .reservedWords => (r.texts? v).map fun ts => { o with reservedWords := Text.sortedSet ts }
  | .shapingKeys => (r.texts? v).map fun ts => { o with shapingKeys := Text.sortedSet ts }
  | .invalidPolicy => (r.policy? v).map fun p => { o with invalidPolicy := p }

/-- The options with values for settings by name. -/
def setMembers? (r : SettingReader α) (o : Options) (members : List (Text × α)) :
    Option Options := do
  let settings ← members.mapM fun m => (Setting.named? m.1).map fun s => (s, m.2)
  if (settings.map Prod.fst).Nodup then settings.foldlM (fun o s => o.set? r s.1 s.2) o else none

/-- The options with values for the first settings in their fixed order. -/
def setItems? (r : SettingReader α) (o : Options) (items : List α) : Option Options :=
  if items.length ≤ Setting.all.length then
    (Setting.all.zip items).foldlM (fun o s => o.set? r s.1 s.2) o
  else none

end Options

/-- The text of a JSON string. -/
def Json.text? : Json → Option Text
  | .string t => some t
  | _ => none

/-- In JSON a policy is its name, or an object that gives null to the name. -/
def jsonSettings : SettingReader Json where
  text? := Json.text?
  texts?
    | .array items => items.mapM Json.text?
    | _ => none
  policy?
    | .string t => InvalidPolicy.named? t
    | .object [(t, .null)] => InvalidPolicy.named? t
    | _ => none

namespace Options

/-- The options that a JSON text gives. -/
def ofJson? (cs : Text) : Option Options :=
  match Json.parse? cs with
  | some (.object members) => setMembers? jsonSettings .default members
  | some (.array items) => setItems? jsonSettings .default items
  | _ => none

end Options

/-- The formats of options texts. -/
inductive OptionsFormat where
  | json
  | yaml
  | auto
deriving DecidableEq, Repr

/-- The last part of a path of files. -/
def fileName (path : Text) : Text := ((path.splitOn '/').filter (· ≠ [])).getLast?.getD []

/-- What follows the last dot in the name of a file, unless that dot begins the name. -/
def fileExtension? (path : Text) : Option Text :=
  let parts := (fileName path).splitOn '.'
  match parts with
  | [] => none
  | [_] => none
  | [[], _] => none
  | parts => parts.getLast?

/-- The format that the name of a file announces. -/
def OptionsFormat.ofFile (path : Text) : OptionsFormat :=
  match fileExtension? path with
  | none => .auto
  | some e =>
    if e = "json".toList then .json
    else if e = "yaml".toList ∨ e = "yml".toList then .yaml
    else .auto

/-- How YAML is read, as options and as data. -/
structure YamlReader where
  options? (text : Text) : Option Options
  data? (text : Text) : Option Json

namespace Options

/-- Reads options without looking at their values. Where no format is given, a text that begins with
a brace is tried as JSON first and any other text as YAML first; the error names the first attempt.
A blank text changes nothing. -/
def read (yaml : YamlReader) (format : OptionsFormat) (cs : Text) : Except OptionsError Options :=
  match format with
  | .json => (ofJson? cs).elim (.error .malformedJson) .ok
  | .yaml => (yaml.options? cs).elim (.error .malformedYaml) .ok
  | .auto =>
    match Text.trimStart cs with
    | [] => .ok .default
    | '{' :: _ => ((ofJson? cs).or (yaml.options? cs)).elim (.error .malformedJson) .ok
    | _ => ((yaml.options? cs).or (ofJson? cs)).elim (.error .malformedYaml) .ok

/-- Reads options that can be used. -/
def readChecked (yaml : YamlReader) (format : OptionsFormat) (cs : Text) :
    Except OptionsError Options :=
  (read yaml format cs).bind checked

end Options

end MustachePath
