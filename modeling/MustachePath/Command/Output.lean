import MustachePath.Command.Invocation
import MustachePath.Json.Writer
import MustachePath.Preprocess

/-!
# Printed results

Results are printed as text for readers or as one line of JSON, whose members stand in a fixed
order and are left out where there is nothing to say. A preprocessed template is printed as it is
unless it was written to a file.
-/

namespace MustachePath

/-- A number in JSON. -/
def Json.ofNat (n : Nat) : Json := .number (.integer n)

/-- A member of an object, left out where there is no text. -/
def Json.optionalMember (key : Text) (text : Option Text) : List (Text × Json) :=
  text.toList.map fun t => (key, .string t)

/-- A diagnostic in JSON. -/
def Diagnostic.toJson (d : Diagnostic) : Json :=
  .object <|
    [("line".toList, .ofNat d.line), ("column".toList, .ofNat d.column),
      ("kind".toList, .string d.kind)] ++
    Json.optionalMember "reason".toList d.reason ++
    [("text".toList, .string d.text)] ++
    Json.optionalMember "replacement".toList d.replacement

/-- A report in JSON. -/
def Report.toJson (r : Report) : Json :=
  .object
    [("segments".toList, .ofNat r.tags), ("rewritten".toList, .ofNat r.rewritten),
      ("left".toList, .ofNat r.left), ("control".toList, .ofNat r.control),
      ("invalid".toList, .ofNat r.invalid),
      ("diagnostics".toList, .array (r.diagnostics.map Diagnostic.toJson))]

/-- A diagnostic as a line of text, after the name of the template. -/
def Diagnostic.textLine (path : Text) (d : Diagnostic) : Text :=
  path ++ ":".toList ++ Text.ofNat d.line ++ ":".toList ++ Text.ofNat d.column ++ " ".toList ++
    d.kind ++ d.reason.elim [] (fun r => " (".toList ++ r ++ ")".toList) ++ ": ".toList ++
    d.text ++ d.replacement.elim [] (fun r => " -> ".toList ++ r) ++ "\n".toList

/-- The counts of a report as a line of text. -/
def Report.summary (r : Report) : Text :=
  Text.ofNat r.tags ++ " segment(s): ".toList ++ Text.ofNat r.rewritten ++
    " rewritten, ".toList ++ Text.ofNat r.left ++ " left, ".toList ++ Text.ofNat r.control ++
    " control, ".toList ++ Text.ofNat r.invalid ++ " invalid\n".toList

/-- A preprocessed template in JSON: where it was written to, or else the template itself. -/
def Preprocessed.toJson (p : Preprocessed) (out : Option Text) : Json :=
  .object <|
    [("rewritten".toList, .ofNat p.report.rewritten),
      ("invalid".toList, .ofNat p.report.invalid)] ++
    match out with
    | some path => [("written_to".toList, .string path)]
    | none => [("template".toList, .string p.output)]

namespace Command

/-- What is printed unless results are kept quiet. -/
def Display.unlessQuiet (d : Display) (text : Text) : Text := if d.quiet then [] else text

/-- A report as it is printed. -/
def Display.report (d : Display) (path : Text) (r : Report) : Text :=
  d.unlessQuiet <|
    match d.format with
    | .text => r.diagnostics.flatMap (Diagnostic.textLine path) ++ r.summary
    | .json => r.toJson.write ++ "\n".toList

/-- A preprocessed template as it is printed. As text it is printed even when results are kept
quiet. -/
def Display.preprocessed (d : Display) (out : Option Text) (p : Preprocessed) : Text :=
  match d.format, out with
  | .text, none => p.output
  | .text, some path =>
    d.unlessQuiet <|
      "ok: ".toList ++ Text.ofNat p.report.rewritten ++ " rewrite(s) written to ".toList ++ path ++
        "\n".toList
  | .json, out => d.unlessQuiet ((p.toJson out).write ++ "\n".toList)

/-- A value as it is printed. -/
def Display.value (d : Display) (v : Json) : Text :=
  d.unlessQuiet <|
    match d.format with
    | .text => v.writeLines 0 ++ "\n".toList
    | .json => v.write ++ "\n".toList

/-- A complaint as it is printed. -/
def Display.complaint (d : Display) (message : Text) : Text :=
  d.unlessQuiet <|
    match d.format with
    | .text => "error: ".toList ++ message ++ "\n".toList
    | .json =>
      (Json.object [("error".toList, .string message)]).write ++ "\n".toList

end Command

end MustachePath
