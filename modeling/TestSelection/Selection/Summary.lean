import TestSelection.Selection.Verdict
import TestSelection.Test.Json

/-!
# Summaries of a selection

A summary lists the selected tests and the skipped ones, the latter with their reasons, both in the
order of the input, and gives the two counts.

A skipped test is written as one table, in which the reason stands among the fields of the test.
-/

namespace TestSelection

open Json (Fault Manner Tree)

/-- A test that was skipped, and why. -/
structure SkippedTest where
  test : TestCase
  reason : SkipReason
deriving DecidableEq, Repr, Inhabited

/-- What was selected and what was skipped. -/
structure Summary where
  selectedCount : Nat
  skippedCount : Nat
  selected : List TestCase
  skipped : List SkippedTest
deriving DecidableEq, Repr, Inhabited

/-! ## Skipped tests -/

namespace SkippedTest

/-- The number of arrays and tables around the fields of a skipped test. -/
def depth : Nat := 3

/-- Take the reason out of the entries, and read the others as values. -/
def split (reason : Option SkipReason) : List (Option String × Tree) →
    Except Fault (Option SkipReason × List (String × Value))
  | [] => .ok (reason, [])
  | (k, t) :: es => do
    let k ← Tree.key k
    if k = "reason" then
      if reason.isSome then .error (.mismatch (.duplicateField "reason"))
      else do
        let r ← t.asVariant SkipReason.ofName
        split (some r) es
    else do
      let v ← t.toValue (Json.depthLimit - depth)
      let (reason, rest) ← split reason es
      return (reason, (k, v) :: rest)

/-- Read a skipped test. -/
def ofTree : Tree → Except Fault SkippedTest
  | .table entries => do
    match ← split none entries with
    | (none, _) => .error (.mismatch (.missingField "reason"))
    | (some reason, rest) => do
      let test ← TestCase.ofTree .buffered (.ofValue (.table rest))
      return ⟨test, reason⟩
  | t => .error (t.wrong "struct SkippedTestSummary")

/-- A skipped test as a value. -/
def toValue (s : SkippedTest) : Value :=
  .table (s.test.entries ++ [("reason", .string s.reason.name)])

end SkippedTest

/-! ## Summaries -/

namespace Summary

/-- The fields of a summary. -/
inductive Field where
  | selectedCount
  | skippedCount
  | selected
  | skipped
deriving DecidableEq, Repr

/-- What a field holds. -/
abbrev Field.Holds : Field → Type
  | .selectedCount => Nat
  | .skippedCount => Nat
  | .selected => List TestCase
  | .skipped => List SkippedTest

def record : Record Field :=
  { title := "struct SelectionSummary"
    fields := [.selectedCount, .skippedCount, .selected, .skipped]
    name := fun
      | .selectedCount => "selected-count"
      | .skippedCount => "skipped-count"
      | .selected => "selected"
      | .skipped => "skipped" }

/-- Read a field. -/
def readField : (f : Field) → Tree → Except Fault f.Holds
  | .selectedCount => Tree.asCount
  | .skippedCount => Tree.asCount
  | .selected => fun t => do Tree.each (TestCase.ofTree .streamed) (← t.asSequence)
  | .skipped => fun t => do Tree.each SkippedTest.ofTree (← t.asSequence)

/-- Read a summary. -/
def ofTree (t : Tree) : Except Fault Summary := do
  let fields ← t.record record (Manner.streamed.reading readField)
  Json.ofShape do
    let selectedCount ← fields.required .selectedCount
    let skippedCount ← fields.required .skippedCount
    let selected ← fields.required .selected
    let skipped ← fields.required .skipped
    return ⟨selectedCount, skippedCount, selected, skipped⟩

/-- Read a summary from a text. -/
def ofString (text : String) : Except Fault Summary := (Json.Document.ofString text).read ofTree

/-- A summary as a value. -/
def toValue (s : Summary) : Value :=
  .table
    [("selected-count", .int s.selectedCount),
     ("skipped-count", .int s.skippedCount),
     ("selected", .array (s.selected.map TestCase.toValue)),
     ("skipped", .array (s.skipped.map SkippedTest.toValue))]

/-- The summary of nothing. -/
def none : Summary := ⟨0, 0, [], []⟩

end Summary

end TestSelection
