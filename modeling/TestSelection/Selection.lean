import TestSelection.Selection.Summary

/-!
# Selections

A selection gives a verdict for each test of a list, in order. Tests that occur several times have
several verdicts.
-/

namespace TestSelection

/-- The tests of a list with their verdicts. -/
structure Selection where
  verdicts : List (TestCase × Verdict)
deriving Inhabited

namespace Selection

/-- The selected tests. -/
def selected (s : Selection) : List TestCase :=
  (s.verdicts.filter fun v => v.2.isSelected).map (·.1)

/-- The skipped tests with the reasons. -/
def skipped (s : Selection) : List SkippedTest :=
  s.verdicts.filterMap fun v => v.2.reason?.map fun reason => ⟨v.1, reason⟩

/-- The number of tests. -/
def total (s : Selection) : Nat := s.verdicts.length

/-- The number of selected tests. -/
def selectedCount (s : Selection) : Nat := s.selected.length

/-- The number of the other tests. -/
def skippedCount (s : Selection) : Nat := s.total - s.selectedCount

/-- The number of tests that were skipped for a reason. -/
def countSkipped (s : Selection) (reason : SkipReason) : Nat :=
  s.skipped.countP fun t => t.reason = reason

/-- The summary of a selection. -/
def summary (s : Selection) : Summary :=
  { selectedCount := s.selected.length
    skippedCount := s.skipped.length
    selected := s.selected
    skipped := s.skipped }

end Selection

end TestSelection
