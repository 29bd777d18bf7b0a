import MustachePath.Text.Basic

/-!
# Arguments of the command line

The words of a command line are read in order: a command, options, and operands. Options are known
only to some commands, and those before the command is named are known to all. A long option takes
its value from behind an equals sign or from the next word; short options have no values and may
stand together behind one hyphen. After a double hyphen all words are operands.
-/

namespace MustachePath.Command

/-- The commands. -/
inductive Verb where
  | preprocess
  | check
  | resolve
deriving DecidableEq, Repr

/-- Options without a value. -/
inductive Switch where
  | help
  | version
  | quiet
  | strict
deriving DecidableEq, Repr

/-- Options with a value. -/
inductive Parameter where
  | logLevel
  | format
  | out
  | config
  | accessor
  | filter
  | sort
  | limit
deriving DecidableEq, Repr

/-- The options. -/
inductive Flag where
  | switch (s : Switch)
  | parameter (p : Parameter)
deriving DecidableEq, Repr

/-- The name of a command. -/
def Verb.name : Verb → Text
  | preprocess => "preprocess".toList
  | check => "check".toList
  | resolve => "resolve".toList

/-- The command with a name. -/
def Verb.named? (t : Text) : Option Verb :=
  [preprocess, check, resolve].find? fun v => v.name = t

/-- The long name of an option. -/
def Flag.name : Flag → Text
  | switch .help => "help".toList
  | switch .version => "version".toList
  | switch .quiet => "quiet".toList
  | switch .strict => "strict".toList
  | parameter .logLevel => "log-level".toList
  | parameter .format => "format".toList
  | parameter .out => "out".toList
  | parameter .config => "config".toList
  | parameter .accessor => "accessor".toList
  | parameter .filter => "filter".toList
  | parameter .sort => "sort".toList
  | parameter .limit => "limit".toList

/-- The letter of an option. -/
def Flag.letter? : Flag → Option Char
  | switch .help => some 'h'
  | switch .version => some 'V'
  | switch .quiet => some 'q'
  | _ => none

/-- The options that are known after a command, or before one is named. -/
def flagsOf : Option Verb → List Flag
  | none => [.switch .help, .switch .version, .parameter .logLevel]
  | some v =>
    [.switch .help, .parameter .logLevel, .parameter .format, .switch .quiet] ++
      match v with
      | .preprocess =>
        [.switch .strict, .parameter .out, .parameter .config, .parameter .accessor]
      | .check => [.parameter .config, .parameter .accessor]
      | .resolve => [.parameter .filter, .parameter .sort, .parameter .limit]

/-- Why a command line is refused. -/
inductive UsageError where
  | missingCommand
  | unknownCommand (name : Text)
  | unknownOption (word : Text)
  | unexpectedValue (option : Text)
  | missingValue (option : Text)
  | invalidValue (option value : Text)
  | repeatedOption (option : Text)
  | missingOperand (name : Text)
  | unexpectedOperand (word : Text)
deriving DecidableEq, Repr

/-- The wording of a refusal. -/
def UsageError.message : UsageError → Text
  | missingCommand => "a command is needed".toList
  | unknownCommand name => "unknown command: ".toList ++ name
  | unknownOption word => "unknown option: ".toList ++ word
  | unexpectedValue option => "no value is allowed for --".toList ++ option
  | missingValue option => "a value is needed for --".toList ++ option
  | invalidValue option value =>
    "invalid value for --".toList ++ option ++ ": ".toList ++ value
  | repeatedOption option => "given more than once: --".toList ++ option
  | missingOperand name => "missing: ".toList ++ name
  | unexpectedOperand word => "unexpected: ".toList ++ word

/-- The parts of a command line. -/
inductive Argument where
  | verb (v : Verb)
  | switch (s : Switch)
  | parameter (p : Parameter) (value : Text)
  | operand (word : Text)
  | malformed (e : UsageError)
deriving DecidableEq, Repr

/-- What a word of a command line is, before anything else is read. -/
inductive Word where
  | complete (arguments : List Argument)
  | awaitsValue (p : Parameter)
  | endsOptions
  | plain
deriving DecidableEq, Repr

/-- Reads a long option, with the value behind an equals sign if there is one. -/
def readLong (scope : Option Verb) (body : Text) : Word :=
  let name := body.takeWhile (· ≠ '=')
  let value? := match body.dropWhile (· ≠ '=') with
    | [] => none
    | _ :: value => some value
  match (flagsOf scope).find? (fun f => f.name = name), value? with
  | none, _ => .complete [.malformed (.unknownOption ('-' :: '-' :: name))]
  | some (.switch s), none => .complete [.switch s]
  | some (.switch _), some _ => .complete [.malformed (.unexpectedValue name)]
  | some (.parameter p), some value => .complete [.parameter p value]
  | some (.parameter p), none => .awaitsValue p

/-- Reads a short option. -/
def readLetter (scope : Option Verb) (c : Char) : Argument :=
  match (flagsOf scope).find? fun f => f.letter? = some c with
  | some (.switch s) => .switch s
  | _ => .malformed (.unknownOption ['-', c])

/-- Reads one word. A hyphen alone is a plain word. -/
def readWord (scope : Option Verb) : Text → Word
  | ['-', '-'] => .endsOptions
  | '-' :: '-' :: body => readLong scope body
  | '-' :: c :: cs => .complete ((c :: cs).map (readLetter scope))
  | _ => .plain

/-- Whether a word may be the value of the option before it. Only a sort key may look like an
option, since a hyphen before a field asks for descending order. -/
def Parameter.takes (p : Parameter) (word : Text) : Bool :=
  p = .sort || word = ['-'] || word.head? ≠ some '-'

/-- Reads the words after the word for help: nothing, or one command. -/
def readHelp : List Text → Argument
  | [] => .switch .help
  | [word] =>
    if word = "help".toList ∨ (Verb.named? word).isSome then .switch .help
    else .malformed (.unknownCommand word)
  | _ :: word :: _ => .malformed (.unknownCommand word)

/-- Reads the words of a command line, at first or after a command. -/
def readArguments (scope : Option Verb) : List Text → List Argument
  | [] => []
  | word :: rest =>
    match readWord scope word with
    | .complete arguments => arguments ++ readArguments scope rest
    | .endsOptions => rest.map .operand
    | .awaitsValue p =>
      match rest with
      | value :: rest =>
        if p.takes value then .parameter p value :: readArguments scope rest
        else [.malformed (.missingValue (Flag.parameter p).name)]
      | [] => [.malformed (.missingValue (Flag.parameter p).name)]
    | .plain =>
      if scope.isSome then .operand word :: readArguments scope rest
      else if word = "help".toList then [readHelp rest]
      else match Verb.named? word with
        | some v => .verb v :: readArguments (some v) rest
        | none => [.malformed (.unknownCommand word)]

end MustachePath.Command
