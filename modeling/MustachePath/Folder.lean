import MustachePath.Text.Basic

/-!
# Folders

A folder holds the files and directories of a system, by the names that lead to them from its root.
A path that begins with a slash is followed from the root, and any other path from the directory
where a program runs; a dot stays in a directory and two dots leave it. Files are read and written
whole. `lookup?_put` says that putting something in one place changes no other place.
-/

namespace MustachePath

/-- Why a file is not read or written: the system refuses, with a description and a number, there is
no text in the file, or the text is too large for the memory. -/
inductive FileError where
  | system (description : Text) (code : Nat)
  | notText
  | outOfMemory
deriving DecidableEq, Repr

namespace FileError

/-- Nothing has the name. -/
def notFound : FileError := system "No such file or directory".toList 2

/-- A path goes on after a file. -/
def notADirectory : FileError := system "Not a directory".toList 20

/-- A directory stands where a file is wanted. -/
def isADirectory : FileError := system "Is a directory".toList 21

/-- A file would grow beyond the largest size. -/
def tooLarge : FileError := system "File too large".toList 27

/-- The wording of an error. -/
def message : FileError → Text
  | system description code =>
    description ++ " (os error ".toList ++ Text.ofNat code ++ ")".toList
  | notText => "stream did not contain valid UTF-8".toList
  | outOfMemory => "out of memory".toList

end FileError

/-- What a name stands for. A file that is not text is told apart, without its content. -/
inductive Entry where
  | text (content : Text)
  | binary
  | directory
deriving DecidableEq, Repr

/-- A place in a folder: the names that lead to it from the root, which is the empty list. -/
abbrev Address := List Text

/-- What is in a folder, by place. -/
structure Folder where
  entries : List (Address × Entry)
deriving DecidableEq, Repr

namespace Folder

/-- What stands at a place. -/
def lookup? (f : Folder) (a : Address) : Option Entry :=
  if a = [] then some .directory else (f.entries.find? fun e => e.1 = a).map Prod.snd

/-- Puts something at a place, instead of what stands there. -/
def put (f : Folder) (a : Address) (e : Entry) : Folder :=
  ⟨(a, e) :: f.entries.filter fun old => old.1 ≠ a⟩

theorem lookup?_put (f : Folder) {a : Address} (ha : a ≠ []) (e : Entry) (b : Address) :
    (f.put a e).lookup? b = if b = a then some e else f.lookup? b := by
  by_cases hb : b = []
  · simp [lookup?, hb, Ne.symm ha]
  · by_cases hab : b = a
    · simp [lookup?, put, hab, ha]
    · have hrest : (f.entries.filter fun old => old.1 ≠ a).find? (fun e => e.1 = b) =
          f.entries.find? fun e => e.1 = b := by
        rw [List.find?_filter]
        congr 1
        funext old
        by_cases h : old.1 = b <;> simp [h, hab]
      simp only [lookup?, hb, hab, if_false, put]
      rw [List.find?_cons_of_neg (by simpa using Ne.symm hab), hrest]

/-- Goes on from a place by a name. An empty name stays, like a dot, and two dots stay in the
root. -/
def enter (f : Folder) (a : Address) (name : Text) : Except FileError Address :=
  match f.lookup? a with
  | some .directory =>
    if name = [] ∨ name = ".".toList then .ok a
    else if name = "..".toList then .ok a.dropLast
    else if (f.lookup? (a ++ [name])).isSome then .ok (a ++ [name])
    else .error .notFound
  | some _ => .error .notADirectory
  | none => .error .notFound

/-- Where a path begins, for a program that runs in the given directory. -/
def start (here : Address) (path : Text) : Address := if path.head? = some '/' then [] else here

/-- The size that no file reaches: sizes are numbers of 63 bits. -/
def sizeLimit : Nat := Nat.pow 2 63

/-- Reads the text of a file. -/
def read (f : Folder) (here : Address) (path : Text) : Except FileError Text :=
  if path = [] then .error .notFound
  else do
    let a ← (path.splitOn '/').foldlM f.enter (start here path)
    match f.lookup? a with
    | some (.text content) =>
      if Text.byteLength content < sizeLimit then .ok content else .error .outOfMemory
    | some .binary => .error .notText
    | some .directory => .error .isADirectory
    | none => .error .notFound

/-- The place of a file to be written, which need not be there while its directory is. -/
def target (f : Folder) (here : Address) (path : Text) : Except FileError Address :=
  match (path.splitOn '/').reverse.dropWhile (· = []) with
  | [] => .error (if path = [] then .notFound else .isADirectory)
  | name :: names => do
    let a ← names.reverse.foldlM f.enter (start here path)
    -- the empty name stays in a directory, and nowhere else
    let a ← f.enter a []
    if name = ".".toList ∨ name = "..".toList ∨ path.getLast? = some '/' ∨
        f.lookup? (a ++ [name]) = some .directory then
      .error .isADirectory
    else .ok (a ++ [name])

/-- Writes the text of a file, which need not be there before. -/
def write (f : Folder) (here : Address) (path content : Text) : Except FileError Folder := do
  let a ← f.target here path
  if Text.byteLength content < sizeLimit then .ok (f.put a (.text content)) else .error .tooLarge

end Folder

end MustachePath
