import MustachePath.Command.Run

/-!
# The program

Runs the command line on the files of the system.
-/

namespace MustachePath

/-- The refusal behind an error of the system. -/
def FileError.ofSystem : IO.Error → FileError
  | .noFileOrDirectory _ _ _ => .notFound
  | .inappropriateType _ code details => .system details.toList code.toNat
  | .permissionDenied _ code details => .system details.toList code.toNat
  | .otherError code details => .system details.toList code.toNat
  | e => .system e.toString.toList 0

/-- The files of the system. -/
def Command.Files.ofSystem : Command.Files IO where
  read path := do
    try
      let file ← IO.FS.Handle.mk (String.ofList path) .read
      let bytes ← file.readBinToEnd
      return match String.fromUTF8? bytes with
        | some text => .ok text.toList
        | none => .error .notText
    catch e => return .error (.ofSystem e)
  write path content := do
    try
      IO.FS.writeFile (String.ofList path) (String.ofList content)
      return .ok ()
    catch e => return .error (.ofSystem e)
  yaml := .ofDocuments

end MustachePath

open MustachePath.Command in
/-- Does what the command line asks for, prints the outcome and ends with its exit code. -/
def main (words : List String) : IO UInt32 := do
  let outcome ← (Request.ofWords (words.map String.toList)).run Files.ofSystem
  IO.print (String.ofList outcome.stdout)
  IO.eprint (String.ofList outcome.stderr)
  return outcome.exit.code.toUInt32
