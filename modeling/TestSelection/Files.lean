import TestSelection.Path
import TestSelection.Text.Utf8

/-!
# Files

The files that a run can see, below the directory in which it runs. What lies outside of that
directory is taken to be there as directories only.

A path is followed component by component, and every component but the last one has to be a
directory. The last one has to be a directory too if a separator or a dot follows it.
-/

namespace TestSelection

/-- Why a file cannot be read. -/
inductive ReadError where
  | notFound
  | notDirectory
  | isDirectory
  | nameTooLong
  | nulInName
  | notText
  /-- The system refuses for another reason, and there may be a file all the same. -/
  | refused (isFile : Bool) (reason : String)
deriving DecidableEq, Repr, Inhabited

namespace ReadError

/-- Whether there is a file that cannot be read. -/
def isFile : ReadError → Bool
  | .notText => true
  | .refused there _ => there
  | _ => false

/-- The wording of a failure to read. -/
def message : ReadError → String
  | .notFound => "No such file or directory (os error 2)"
  | .notDirectory => "Not a directory (os error 20)"
  | .isDirectory => "Is a directory (os error 21)"
  | .nameTooLong => "File name too long (os error 36)"
  | .nulInName => "file name contained an unexpected NUL byte"
  | .notText => "stream did not contain valid UTF-8"
  | .refused _ reason => reason

end ReadError

/-- A way to read files. -/
structure FileAccess where
  read : Path → Except ReadError (List UInt8)

/-- The text of a file. -/
def FileAccess.readText (access : FileAccess) (p : Path) : Except ReadError String := do
  match Utf8.decode? (← access.read p) with
  | some text => return text
  | none => .error .notText

/-- What stands under a name. -/
inductive Entry where
  | file (content : List UInt8)
  | directory
deriving DecidableEq

/-- Files and directories, by the names that lead to them. -/
structure Files where
  entries : List (List String × Entry)
deriving Inhabited

namespace Files

/-- No files at all. -/
def empty : Files := ⟨[]⟩

/-! ## Following a path -/

/-- A place: below the directory of the run, or outside of it. -/
inductive Place where
  /-- The names that lead there, last first. -/
  | inside (names : List String)
  | outside
deriving DecidableEq, Repr

/-- What is at a place. -/
def at? (fs : Files) : Place → Option Entry
  | .inside [] => some .directory
  | .inside names => fs.entries.lookup names.reverse
  | .outside => some .directory

/-- The longest name of a file, and the longest path, in bytes. -/
def nameLimit : Nat := 255
def pathLimit : Nat := 4095

/-- Follow one piece of a path. -/
def enter (fs : Files) (place : Place) (piece : String) : Except ReadError Place :=
  match fs.at? place with
  | none => .error .notFound
  | some (.file _) => .error .notDirectory
  | some .directory =>
    if piece = "" ∨ piece = "." then .ok place
    else if piece = ".." then
      match place with
      | .inside (_ :: names) => .ok (.inside names)
      | _ => .ok .outside
    else if nameLimit < piece.utf8ByteSize then .error .nameTooLong
    else
      match place with
      | .inside names =>
        if (fs.entries.lookup (piece :: names).reverse).isSome then .ok (.inside (piece :: names))
        else .error .notFound
      | .outside => .error .notFound

/-- Follow the pieces of a path. -/
def walk (fs : Files) : Place → List String → Except ReadError Place
  | place, [] => .ok place
  | place, piece :: rest => do walk fs (← fs.enter place piece) rest

/-- What a path leads to. -/
def find (fs : Files) (p : Path) : Except ReadError Entry := do
  let chars := p.text.toList
  if chars.contains '\x00' then .error .nulInName
  else if p.text = "" then .error .notFound
  else if pathLimit < p.text.utf8ByteSize then .error .nameTooLong
  else
    let start := if p.isAbsolute then .outside else .inside []
    let place ← fs.walk start ((Text.pieces '/' chars).map String.ofList)
    match fs.at? place with
    | some entry => return entry
    | none => .error .notFound

/-! ## Reading -/

/-- The bytes of a file. -/
def read (fs : Files) (p : Path) : Except ReadError (List UInt8) := do
  match ← fs.find p with
  | .file content => return content
  | .directory => .error .isDirectory

/-- Read these files. -/
def access (fs : Files) : FileAccess := ⟨fs.read⟩

/-! ## Writing -/

/-- The names of a path that leads to a place inside. -/
def namesOf (p : Path) : List String :=
  p.components.filterMap fun
    | .name s => some s
    | _ => none

/-- Put an entry under names. -/
def put (fs : Files) (names : List String) (entry : Entry) : Files :=
  ⟨(names, entry) :: fs.entries.filter (fun e => e.1 ≠ names)⟩

/-- Make the directory of some names, and all those around it. -/
def makeDirectories (fs : Files) (names : List String) : Files :=
  (List.range names.length).foldl
    (fun fs n =>
      let dir := names.take (n + 1)
      if (fs.entries.lookup dir).isSome then fs else fs.put dir .directory) fs

/-- Write a file, and make the directories around it. -/
def write (fs : Files) (p : Path) (content : List UInt8) : Files :=
  let names := namesOf p
  (fs.makeDirectories names.dropLast).put names (.file content)

/-- Make a directory. -/
def makeDirectory (fs : Files) (p : Path) : Files := fs.makeDirectories (namesOf p)

/-- Remove a file, or a directory with all that is in it. -/
def remove (fs : Files) (p : Path) : Files :=
  let names := namesOf p
  ⟨fs.entries.filter fun e => !names.isPrefixOf e.1⟩

end Files

end TestSelection
