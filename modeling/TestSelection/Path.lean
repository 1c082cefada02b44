import TestSelection.Text.Blank

/-!
# Paths

A path is a text. Where it leads depends only on its components: repeated separators, separators at
the end and components `.` after the first one make no difference. Two paths are the same if their
components are. A path that starts with a separator is absolute.
-/

namespace TestSelection

/-- A path as it was written. -/
structure Path where
  text : String
deriving DecidableEq, Repr, Inhabited

namespace Path

/-! ## Components -/

/-- A part of a path. -/
inductive Component where
  | root
  /-- A dot at the start. -/
  | here
  | parent
  | name (s : String)
deriving DecidableEq, Repr

/-- The component of a piece between separators; pieces that make no difference have none. -/
def component? (piece : List Char) : Option Component :=
  if piece = [] ∨ piece = ['.'] then none
  else if piece = ['.', '.'] then some .parent
  else some (.name (String.ofList piece))

/-- The components of a path. -/
def components (p : Path) : List Component :=
  match Text.pieces '/' p.text.toList with
  | [] => []
  | [] :: [] => []
  | [] :: rest => .root :: rest.filterMap component?
  | ['.'] :: rest => .here :: rest.filterMap component?
  | pieces => pieces.filterMap component?

/-- Whether two paths have the same components. -/
def same (p q : Path) : Bool := p.components == q.components

/-- Whether a path starts at the root. -/
def isAbsolute (p : Path) : Bool := p.text.toList.head? == some '/'

/-! ## Directories and names -/

/-- A path from a directory; absolute paths stay as they are. -/
def join (dir p : Path) : Path :=
  if p.isAbsolute then p
  else if dir.text = "" ∨ dir.text.toList.getLast? = some '/' then ⟨dir.text ++ p.text⟩
  else ⟨dir.text ++ "/" ++ p.text⟩

/-- A text backwards, from its last component on; a separator that stands for the root stays. -/
def dropEnd : List Char → List Char
  | '/' :: [] => ['/']
  | '/' :: rest => dropEnd rest
  | '.' :: '/' :: rest => dropEnd ('/' :: rest)
  | text => text

/-- The text backwards, up to the end of the last component. -/
def backwards (p : Path) : List Char := dropEnd p.text.toList.reverse

/-- The path without its last component. -/
def parent? (p : Path) : Option Path :=
  match p.backwards.takeWhile (· ≠ '/') with
  | [] => none
  | _ => some ⟨String.ofList (dropEnd (p.backwards.dropWhile (· ≠ '/'))).reverse⟩

/-- The last component, if it is a name. -/
def fileName? (p : Path) : Option String :=
  match p.components.getLast? with
  | some (.name s) => some s
  | _ => none

/-- What follows the last dot of the name. A dot at its start begins no extension. -/
def extension? (p : Path) : Option String := do
  let pieces := Text.pieces '.' (← p.fileName?).toList
  match pieces with
  | [] | [_] | [[], _] => none
  | pieces => pieces.getLast?.map String.ofList

/-- The path with an extension put after its name. -/
def withExtension? (p : Path) (extension : String) : Option Path :=
  p.fileName?.map fun _ => ⟨String.ofList p.backwards.reverse ++ "." ++ extension⟩

end Path

end TestSelection
