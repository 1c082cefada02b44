import TestSelection.Files
import TestSelection.Test.Json

/-!
# Files of tests

A test list is read from a JSON file, which has to be there and has to be text.
-/

namespace TestSelection

/-- A file that holds no test list. -/
inductive TestListError where
  | unreadable (file : Path) (cause : ReadError)
  | malformed (file : Path) (cause : Json.Fault)

/-- The wording of a failure. -/
def TestListError.message : TestListError → String
  | .unreadable file _ => "failed to read test list from `" ++ file.text ++ "`"
  | .malformed file _ => "failed to parse test list at `" ++ file.text ++ "`"

/-- Read the tests of a file. -/
def TestList.ofFile (access : FileAccess) (file : Path) : Except TestListError (List TestCase) :=
  match access.readText file with
  | .error cause => .error (.unreadable file cause)
  | .ok text =>
    match TestList.ofString text with
    | .error cause => .error (.malformed file cause)
    | .ok l => .ok l.tests

end TestSelection
