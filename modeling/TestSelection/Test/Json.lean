import TestSelection.Json.Printer
import TestSelection.Json.Reading
import TestSelection.Test

/-!
# Test lists in JSON

A test list is a table with the tests under `tests`. Readers pass over fields that they do not
know. A missing package is empty, and a missing list of annotations has none. Both are read from a
table or from an array with the fields in order.

What is written can be read again: an empty list of annotations and an absent value are left out.
-/

namespace TestSelection

open Json (Fault Manner Tree)

/-! ## Annotations -/

namespace Annotation

/-- The fields of an annotation. -/
inductive Field where
  | name
  | value
deriving DecidableEq, Repr

/-- What a field holds. -/
abbrev Field.Holds : Field → Type
  | .name => String
  | .value => Option String

def record : Record Field :=
  { title := "struct TestAnnotation"
    fields := [.name, .value]
    name := fun
      | .name => "name"
      | .value => "value" }

/-- Read a field. -/
def readField : (f : Field) → Tree → Except Fault f.Holds
  | .name => Tree.asString
  | .value => Tree.asOptionalString

/-- Read an annotation. -/
def ofTree (manner : Manner) (t : Tree) : Except Fault Annotation := do
  let fields ← t.record record (manner.reading readField)
  Json.ofShape do
    let name ← fields.required .name
    return ⟨name, fields.optional .value none⟩

/-- An annotation as a value. -/
def toValue (a : Annotation) : Value :=
  .table (("name", .string a.name) ::
    match a.value with
    | some value => [("value", .string value)]
    | none => [])

end Annotation

/-! ## Tests -/

namespace TestCase

/-- The fields of a test. -/
inductive Field where
  | package
  | className
  | method
  | annotations
deriving DecidableEq, Repr

/-- What a field holds. -/
abbrev Field.Holds : Field → Type
  | .package => String
  | .className => String
  | .method => String
  | .annotations => List Annotation

def record : Record Field :=
  { title := "struct TestCase"
    fields := [.package, .className, .method, .annotations]
    name := fun
      | .package => "package"
      | .className => "class-name"
      | .method => "method"
      | .annotations => "annotations" }

/-- Read a field. -/
def readField (manner : Manner) : (f : Field) → Tree → Except Fault f.Holds
  | .package => Tree.asString
  | .className => Tree.asString
  | .method => Tree.asString
  | .annotations => fun t => do
    let read := Annotation.ofTree manner
    Tree.each read (← t.asSequence)

/-- Read a test. -/
def ofTree (manner : Manner) (t : Tree) : Except Fault TestCase := do
  let fields ← t.record record (manner.reading (readField manner))
  Json.ofShape do
    let className ← fields.required .className
    let method ← fields.required .method
    return ⟨fields.optional .package "", className, method, fields.optional .annotations []⟩

/-- The entries of a test. -/
def entries (t : TestCase) : List (String × Value) :=
  [("package", .string t.package), ("class-name", .string t.className),
    ("method", .string t.method)] ++
    if t.annotations.isEmpty then []
    else [("annotations", .array (t.annotations.map Annotation.toValue))]

/-- A test as a value. -/
def toValue (t : TestCase) : Value := .table t.entries

end TestCase

/-! ## Test lists -/

/-- A list of tests. -/
structure TestList where
  tests : List TestCase
deriving DecidableEq, Repr, Inhabited

namespace TestList

/-- The only field of a test list. -/
inductive Field where
  | tests
deriving DecidableEq, Repr

def record : Record Field := ⟨"struct TestListSummary", [.tests], fun _ => "tests"⟩

/-- Read the list of tests. -/
def readField (_ : Field) (t : Tree) : Except Fault (List TestCase) := do
  Tree.each (TestCase.ofTree .streamed) (← t.asSequence)

/-- Read a test list. -/
def ofTree (t : Tree) : Except Fault TestList := do
  let fields ← t.record record (Manner.streamed.reading readField)
  return ⟨fields.optional .tests []⟩

/-- Read a test list from characters, where `none` stands for bytes that are no character. -/
def ofChars (text : List (Option Char)) : Except Fault TestList :=
  (Json.Document.ofChars text).read ofTree

/-- Read a test list from a text. -/
def ofString (text : String) : Except Fault TestList := (Json.Document.ofString text).read ofTree

/-- A test list as a value. -/
def toValue (l : TestList) : Value := .table [("tests", .array (l.tests.map TestCase.toValue))]

/-- The numbers of the tests, in the order of the tests; equal tests keep their order. -/
def order (l : TestList) : List Nat :=
  ((l.tests.zipIdx).mergeSort fun a b => (compare a.1 b.1).isLE).map (·.2)

end TestList

end TestSelection
