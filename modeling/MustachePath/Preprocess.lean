import MustachePath.Edit
import MustachePath.Report

/-!
# Preprocessing a template

Rewritten tags are replaced in place, and everything else stays as written. `preprocess` always
gives a result; `preprocessAndReport` refuses a template with a malformed tag when the options ask
for it, and otherwise returns the same result with the report.
-/

namespace MustachePath

/-- The edits that analysed tags ask for. -/
def editsOf (analyses : List Analysis) : List Edit :=
  analyses.filterMap fun a =>
    a.decision.replacement.map fun text => ⟨a.tag.start, a.tag.stop, text⟩

/-- The template with the replacements of its analysed tags put in place. The edits always fit the
template that the tags were found in; a template they do not fit stays as it is. -/
def rewriteAll (source : Text) (analyses : List Analysis) : Text :=
  (Edit.applyAll? (editsOf analyses) source).getD source

/-- The template with every rewritten tag replaced. -/
def preprocess (o : Options) (source : Text) : Text := rewriteAll source (analyze o source)

/-- The first malformed tag of a refused template. -/
structure InvalidTag where
  line : Nat
  column : Nat
  reason : Text
  text : Text
deriving DecidableEq, Repr

/-- The wording of a refusal. -/
def InvalidTag.message (e : InvalidTag) : Text :=
  "invalid segment at ".toList ++ Text.ofNat e.line ++ ":".toList ++ Text.ofNat e.column ++
    " (".toList ++ e.reason ++ "): ".toList ++ e.text

/-- The refusal that an analysed tag calls for. -/
def Analysis.invalid? (a : Analysis) : Option InvalidTag :=
  match a.decision with
  | .invalid r =>
    some
      { line := a.tag.position.line
        column := a.tag.position.column
        reason := r.code
        text := a.tag.full }
  | _ => none

/-- A preprocessed template and the report on it. -/
structure Preprocessed where
  output : Text
  report : Report
deriving DecidableEq, Repr

/-- Preprocesses a template under the policy of the options. -/
def preprocessAndReport (o : Options) (source : Text) : Except InvalidTag Preprocessed :=
  let analyses := analyze o source
  match o.invalidPolicy, analyses.findSome? Analysis.invalid? with
  | .reject, some e => .error e
  | _, _ => .ok ⟨rewriteAll source analyses, .ofAnalyses analyses⟩

/-- The preprocessed template under the policy of the options. -/
def preprocessOrRefuse (o : Options) (source : Text) : Except InvalidTag Text :=
  (preprocessAndReport o source).map Preprocessed.output

end MustachePath
