import MustachePath.Mustache.Decision

/-!
# Reports

A report counts the tags of a template by the kind of decision about them, and lists every tag that
is not a control tag together with the decision.
-/

namespace MustachePath

/-- A tag and the decision about it. -/
structure Analysis where
  tag : Tag
  decision : Decision
deriving DecidableEq, Repr

/-- The decisions about all tags of a template, in order. -/
def analyze (o : Options) (source : Text) : List Analysis :=
  (tags source).map fun t => ⟨t, t.decision o⟩

/-- What a report says about one tag. -/
structure Diagnostic where
  line : Nat
  column : Nat
  kind : Text
  reason : Option Text
  text : Text
  replacement : Option Text
deriving DecidableEq, Repr

/-- What a report says about a tag, which is nothing for a control tag. -/
def Analysis.diagnostic? (a : Analysis) : Option Diagnostic :=
  if a.decision = .control then none
  else some
    { line := a.tag.position.line
      column := a.tag.position.column
      kind := a.decision.kind
      reason := a.decision.reasonCode
      text := a.tag.full
      replacement := a.decision.replacement }

/-- The counts of decisions by kind, and what there is to say about each tag. -/
structure Report where
  tags : Nat
  rewritten : Nat
  left : Nat
  control : Nat
  invalid : Nat
  diagnostics : List Diagnostic
deriving DecidableEq, Repr

namespace Decision

/-- Whether a tag is rewritten. -/
def isRewrite : Decision → Bool
  | rewrite _ => true
  | _ => false

/-- Whether a tag is left as written. -/
def isLeave : Decision → Bool
  | leave _ => true
  | _ => false

/-- Whether a tag is malformed. -/
def isInvalid : Decision → Bool
  | invalid _ => true
  | _ => false

end Decision

namespace Report

/-- The report on analysed tags. -/
def ofAnalyses (analyses : List Analysis) : Report where
  tags := analyses.length
  rewritten := analyses.countP fun a => a.decision.isRewrite
  left := analyses.countP fun a => a.decision.isLeave
  control := analyses.countP fun a => a.decision = .control
  invalid := analyses.countP fun a => a.decision.isInvalid
  diagnostics := analyses.filterMap Analysis.diagnostic?

/-- Whether some tag is malformed. -/
def hasInvalid (r : Report) : Bool := 0 < r.invalid

end Report

/-- The report on a template. -/
def report (o : Options) (source : Text) : Report := .ofAnalyses (analyze o source)

end MustachePath
