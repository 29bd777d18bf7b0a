import MustachePath.Command.Output
import MustachePath.Data.Shaping
import MustachePath.Folder
import MustachePath.Options.Yaml

/-!
# Running a command

A run reads files and writes one at most, through operations that are given to it together with a
reader of YAML, so the same run serves the files of a system and a folder held in memory. It ends
with an exit code and with what is printed; a file is written only after everything that can be
refused.
-/

namespace MustachePath.Command

/-- How files are read and written, and how the YAML in them is read. -/
structure Files (m : Type → Type) where
  read (path : Text) : m (Except FileError Text)
  write (path content : Text) : m (Except FileError Unit)
  yaml : YamlReader

/-- What a program runs in: a directory, from which its paths lead, and a reader of YAML. -/
structure Surroundings where
  here : Address
  yaml : YamlReader

/-- The files of a folder in memory. -/
def Files.within (s : Surroundings) : Files (StateM Folder) where
  read path folder := (folder.read s.here path, folder)
  write path content folder :=
    match folder.write s.here path content with
    | .ok folder => (.ok (), folder)
    | .error e => (.error e, folder)
  yaml := s.yaml

/-- The files of a folder in memory, for a program that runs in its root and reads YAML by its
documents. -/
def Files.ofFolder : Files (StateM Folder) := .within ⟨[], .ofDocuments⟩

/-- How a run ends: well, with a template or a command line that is refused, with a path that leads
nowhere, or with another failure. -/
inductive Exit where
  | success
  | refused
  | unresolved
  | failed
deriving DecidableEq, Repr

/-- The exit code. -/
def Exit.code : Exit → Nat
  | success => 0
  | refused => 2
  | unresolved => 3
  | failed => 4

/-- Why a run gives no result. -/
inductive Failure where
  | unreadable (path : Text) (e : FileError)
  | unwritable (path : Text) (e : FileError)
  | unusableOptions (e : OptionsError)
  | invalidTag (e : InvalidTag)
  | malformedData
  | malformedShaping (e : ShapingError)
  | malformedPath (e : PathError)
  | unresolved (path : Text)
deriving DecidableEq, Repr

namespace Failure

/-- How a run ends after a failure. -/
def exit : Failure → Exit
  | .invalidTag _ => .refused
  | .unresolved _ => .unresolved
  | _ => .failed

/-- The wording of a failure. -/
def message : Failure → Text
  | .unreadable path e => "failed to read ".toList ++ path ++ ": ".toList ++ e.message
  | .unwritable path e => "failed to write ".toList ++ path ++ ": ".toList ++ e.message
  | .unusableOptions e => e.message
  | .invalidTag e => e.message
  | .malformedData => "data file is neither valid JSON nor YAML".toList
  | .malformedShaping e => e.message
  | .malformedPath e => e.message
  | .unresolved path => "path did not resolve: ".toList ++ path

/-- The failure to read a file of options. -/
def ofOptionsFile (path : Text) (e : FileError) : Failure :=
  .unusableOptions (.unreadableFile path e.message)

end Failure

/-- The result of a run: how it ends and what it prints. -/
structure Result where
  exit : Exit
  output : Text
deriving DecidableEq, Repr

section

variable {m : Type → Type} [Monad m]

/-- A step of a run that uses no file. -/
def attempt {ε α : Type} (failure : ε → Failure) (r : Except ε α) : ExceptT Failure m α :=
  ExceptT.mk (pure (r.mapError failure))

/-- Reads a file. -/
def readFile (files : Files m) (path : Text) : ExceptT Failure m Text :=
  ExceptT.mk do return (← files.read path).mapError (.unreadable path)

/-- Writes a file. -/
def writeFile (files : Files m) (path content : Text) : ExceptT Failure m Unit :=
  ExceptT.mk do return (← files.write path content).mapError (.unwritable path)

/-- Reads options, of which the accessor is not judged before it is known. -/
def readOptions (files : Files m) (source : OptionsSource) : ExceptT Failure m Options := do
  let options ← match source.config with
    | none => pure .default
    | some path =>
      let text ← ExceptT.mk do return (← files.read path).mapError (.ofOptionsFile path)
      attempt .unusableOptions (Options.readChecked files.yaml (.ofFile path) text)
  return { options with accessor := source.accessor.getD options.accessor }

/-- Preprocesses a template and writes the result where it is asked for. -/
def preprocessFile (files : Files m) (display : Display) (template : Text) (out : Option Text)
    (strict : Bool) (source : OptionsSource) : ExceptT Failure m Result := do
  let text ← readFile files template
  let options ← readOptions files source
  let policy := if strict then .reject else options.invalidPolicy
  let options ← attempt .unusableOptions { options with invalidPolicy := policy }.checked
  let done ← attempt .invalidTag (preprocessAndReport options text)
  if let some path := out then writeFile files path done.output
  return ⟨.success, display.preprocessed out done⟩

/-- Reports on a template. A malformed tag is refused after the report. -/
def checkFile (files : Files m) (display : Display) (template : Text) (source : OptionsSource) :
    ExceptT Failure m Result := do
  let text ← readFile files template
  let options ← readOptions files source
  let options ← attempt .unusableOptions options.checked
  let r := MustachePath.report options text
  return ⟨if r.hasInvalid then .refused else .success, display.report template r⟩

/-- Follows a path into the data of a file, which is read as JSON or else as YAML. -/
def resolveFile (files : Files m) (display : Display) (data path : Text)
    (arguments : List (Text × Text)) : ExceptT Failure m Result := do
  let text ← readFile files data
  let some value := (Json.read? text).or (files.yaml.data? text) | throw .malformedData
  let shaping ← attempt .malformedShaping (Shaping.ofArguments arguments)
  let some found ← attempt .malformedPath (MustachePath.resolve value path shaping)
    | throw (.unresolved path)
  return ⟨.success, display.value found⟩

/-- Does what is to be done. -/
def Task.run (files : Files m) (display : Display) : Task → ExceptT Failure m Result
  | preprocess template out strict source =>
    preprocessFile files display template out strict source
  | check template source => checkFile files display template source
  | resolve data path arguments => resolveFile files display data path arguments

end

/-- What a run leaves behind, apart from files. -/
structure Outcome where
  exit : Exit
  stdout : Text
  stderr : Text
deriving DecidableEq, Repr

/-- The outcome of a result or a failure. -/
def Outcome.of (display : Display) : Except Failure Result → Outcome
  | .ok r => ⟨r.exit, r.output, []⟩
  | .error e => ⟨e.exit, [], display.complaint e.message⟩

/-- The name of the program and its version. -/
def versionLine : Text := "dotpath 0.1.0\n".toList

/-- How the program is used. -/
def usage : Text :=
  ["usage: dotpath [--log-level LEVEL] COMMAND\n",
    "  preprocess TEMPLATE [--out FILE] [--strict] [--config FILE] [--accessor NAME]\n",
    "  check TEMPLATE [--config FILE] [--accessor NAME]\n",
    "  resolve DATA PATH [--filter COMPARISON] [--sort FIELD] [--limit NUMBER]\n",
    "Every command takes --format text, --format json and --quiet.\n"].flatMap String.toList

/-- Does what a command line asks for. -/
def Request.run {m : Type → Type} [Monad m] (files : Files m) : Request → m Outcome
  | perform i => do return .of i.display (← (i.task.run files i.display).run)
  | help => return ⟨.success, usage, []⟩
  | version => return ⟨.success, versionLine, []⟩
  | refuse e => return ⟨.refused, [], "error: ".toList ++ e.message ++ "\n".toList ++ usage⟩

end MustachePath.Command
