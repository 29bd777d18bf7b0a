import MustachePath.Command.Arguments

/-!
# What a command line asks for

The arguments of a command line are taken one by one. The first that is wrong, or that asks for
help or the version, decides; otherwise they make up an invocation of a command.
-/

namespace MustachePath.Command

/-- How results are printed. -/
inductive Format where
  | text
  | json
deriving DecidableEq, Repr

/-- How results are printed, if they are. -/
structure Display where
  format : Format
  quiet : Bool
deriving DecidableEq, Repr

/-- Where options come from: a file, and an accessor that stands above it. -/
structure OptionsSource where
  config : Option Text
  accessor : Option Text
deriving DecidableEq, Repr

/-- What is to be done. -/
inductive Task where
  | preprocess (template : Text) (out : Option Text) (strict : Bool) (source : OptionsSource)
  | check (template : Text) (source : OptionsSource)
  | resolve (data path : Text) (shaping : List (Text × Text))
deriving DecidableEq, Repr

/-- What is to be done and how its result is printed. -/
structure Invocation where
  task : Task
  display : Display
deriving DecidableEq, Repr

/-- What a command line asks for. -/
inductive Request where
  | perform (invocation : Invocation)
  | help
  | version
  | refuse (e : UsageError)
deriving DecidableEq, Repr

/-- The operands of commands. -/
inductive Operand where
  | template
  | data
  | path
deriving DecidableEq, Repr

/-- The name of an operand. -/
def Operand.name : Operand → Text
  | template => "template".toList
  | data => "data".toList
  | path => "path".toList

/-- Whether a word may stand for an operand. Files have names. -/
def Operand.admits : Operand → Text → Bool
  | path, _ => true
  | _, word => word ≠ []

/-- The operands of a command in order. -/
def Verb.operands : Verb → List Operand
  | preprocess => [.template]
  | check => [.template]
  | resolve => [.data, .path]

/-- Whether a word is a level of logging: a name in letters of either case, or a number from one to
five. -/
def isLogLevel (word : Text) : Bool :=
  (["error", "warn", "info", "debug", "trace"].map String.toList).contains
      (word.map Char.toLower) ||
    (Text.unsigned64? word).any fun n => 1 ≤ n && n ≤ 5

/-- The format with a name. -/
def Format.named? (word : Text) : Option Format :=
  if word = "text".toList then some .text
  else if word = "json".toList then some .json
  else none

/-- Whether a word may be the value of an option. The level of logging changes no result. -/
def Parameter.admits : Parameter → Text → Bool
  | logLevel, word => isLogLevel word
  | format, word => (Format.named? word).isSome
  | out, word => word ≠ []
  | config, word => word ≠ []
  | _, _ => true

/-- The arguments taken so far. The options are those after the command, or before it while it is
not named. -/
structure Draft where
  verb : Option Verb
  switches : List Switch
  parameters : List (Parameter × Text)
  operands : List Text
deriving DecidableEq, Repr

namespace Draft

/-- Nothing is taken. -/
def empty : Draft := ⟨none, [], [], []⟩

/-- The value of an option. -/
def value? (d : Draft) (p : Parameter) : Option Text := d.parameters.lookup p

/-- Takes one more argument, unless it ends the reading. -/
def add (d : Draft) : Argument → Except Request Draft
  | .malformed e => .error (.refuse e)
  | .verb v => .ok ⟨some v, [], [], []⟩
  | .switch .help => .error .help
  | .switch .version => .error .version
  | .switch s =>
    if s ∈ d.switches then .error (.refuse (.repeatedOption (Flag.switch s).name))
    else .ok { d with switches := s :: d.switches }
  | .parameter p word =>
    if (d.value? p).isSome then .error (.refuse (.repeatedOption (Flag.parameter p).name))
    else if p.admits word then .ok { d with parameters := (p, word) :: d.parameters }
    else .error (.refuse (.invalidValue (Flag.parameter p).name word))
  | .operand word =>
    match (d.verb.elim [] Verb.operands)[d.operands.length]? with
    | none => .error (.refuse (.unexpectedOperand word))
    | some o =>
      if o.admits word then .ok { d with operands := d.operands ++ [word] }
      else .error (.refuse (.missingOperand o.name))

/-- Where the options come from. -/
def optionsSource (d : Draft) : OptionsSource := ⟨d.value? .config, d.value? .accessor⟩

/-- The arguments that shape the result, under their names. -/
def shapingArguments (d : Draft) : List (Text × Text) :=
  [Parameter.filter, .sort, .limit].filterMap fun p =>
    (d.value? p).map fun word => ((Flag.parameter p).name, word)

/-- How results are printed: as text unless another format is asked for. -/
def display (d : Draft) : Display where
  format := ((d.value? .format).bind Format.named?).getD .text
  quiet := .quiet ∈ d.switches

/-- What is to be done, if all operands are there. -/
def task (d : Draft) : Except UsageError Task :=
  match d.verb, d.operands with
  | none, _ => .error .missingCommand
  | some .preprocess, [template] =>
    .ok (.preprocess template (d.value? .out) (.strict ∈ d.switches) d.optionsSource)
  | some .check, [template] => .ok (.check template d.optionsSource)
  | some .resolve, [data, path] => .ok (.resolve data path d.shapingArguments)
  | some v, words =>
    .error (.missingOperand ((v.operands[words.length]?).elim [] Operand.name))

/-- What all arguments together ask for. -/
def request (d : Draft) : Request :=
  match d.task with
  | .ok task => .perform ⟨task, d.display⟩
  | .error e => .refuse e

end Draft

/-- What the words of a command line ask for. -/
def Request.ofWords (words : List Text) : Request :=
  match (readArguments none words).foldlM Draft.add .empty with
  | .ok d => d.request
  | .error r => r

end MustachePath.Command
