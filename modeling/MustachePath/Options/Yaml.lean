import MustachePath.Options.Document
import MustachePath.Yaml.Value

/-!
# Options in YAML documents

In YAML every scalar is a text, whatever else it could mean, and an empty document changes nothing.
-/

namespace MustachePath

/-- In YAML an alias stands for its node. A policy is its name, or a local tag of that name before a
null. -/
def yamlSettings (d : Yaml.Document) : SettingReader Yaml.Node where
  text? := text?
  texts? n :=
    match d.target? n with
    | some (.sequence _ items) => items.mapM text?
    | some (.scalar _ [] true) => some []
    | _ => none
  policy? n :=
    match d.target? n with
    | some (.scalar ⟨_, some ('!' :: name)⟩ t plain) =>
      if plain && (t = [] || Yaml.isNull t) then InvalidPolicy.named? name else none
    | some (.scalar _ t _) => InvalidPolicy.named? t
    | _ => none
where
  /-- The text of a scalar. -/
  text? (n : Yaml.Node) : Option Text :=
    match d.target? n with
    | some (.scalar _ t _) => some t
    | _ => none

/-- The options that a YAML text gives. -/
def Options.ofYaml? (cs : Text) : Option Options := do
  let d ← Yaml.Document.parse? cs
  match d.root with
  | none => return .default
  | some (.scalar _ [] true) => return .default
  | some (.mapping _ members) =>
    let named ← members.mapM fun m => ((yamlSettings d).text? m.1).map fun k => (k, m.2)
    setMembers? (yamlSettings d) .default named
  | _ => none

/-- Reads YAML by its documents. -/
def YamlReader.ofDocuments : YamlReader := ⟨Options.ofYaml?, Yaml.read?⟩

/-- Reads options that can be used, in JSON or in YAML documents. -/
def Options.parse : OptionsFormat → Text → Except OptionsError Options :=
  readChecked .ofDocuments

end MustachePath
