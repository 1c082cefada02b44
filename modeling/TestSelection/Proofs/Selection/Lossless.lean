import TestSelection.Proofs.Output.Sink
import TestSelection.Proofs.Results
import TestSelection.Proofs.Selection.Policy
import TestSelection.Proofs.Test.Written
import TestSelection.Proofs.Text.Utf8
import TestSelection.Selection.Report

/-!
# Reports for programs

**Theorem (`report_lossless`).** A report in JSON, in either layout, is read as the summary of the
selection, whatever the tests are called. The summary has everything that there is to know: its two
lists interleave to the list of the tests with their verdicts, in order and without a test left
over.

A skipped test is written as one table with its reason, and its reader has to take the reason out
before it can read the test (`SkippedTest.split_ofEntries`). The test is then read from a tree that
was read as a whole, and that makes no difference (`TestCase.ofTree_toValue`).
-/

namespace TestSelection

open Json (Document Fault Layout Manner Tree)

/-! ## Skipped tests -/

namespace SkippedTest

theorem ofName_name (reason : SkipReason) : SkipReason.ofName reason.name = .ok reason := by
  cases reason <;> rfl

/-- The reason is found behind the entries of the test, which are read as values. -/
theorem split_ofEntries {entries : List (String × Value)} (reason : SkipReason)
    (hkeys : ∀ e ∈ entries, e.1 ≠ "reason")
    (hdepth : ∀ e ∈ entries, e.2.depth ≤ Json.depthLimit - depth) :
    split none (Tree.ofEntries (entries ++ [("reason", .string reason.name)])) =
      .ok (some reason, entries) := by
  induction entries with
  | nil =>
    have hreason : (Tree.string reason.name).asVariant SkipReason.ofName = .ok reason := by
      rw [Tree.asVariant, ofName_name, Except.mapError]
    rw [List.nil_append, Tree.ofEntries, split]
    refine bind_eq_ok_iff.2 ⟨"reason", rfl, ?_⟩
    rw [if_pos rfl, if_neg (by decide)]
    exact bind_eq_ok_iff.2 ⟨reason, hreason, rfl⟩
  | cons e es ih =>
    obtain ⟨k, v⟩ := e
    obtain ⟨hk, hkeys⟩ := List.forall_mem_cons.1 hkeys
    obtain ⟨hv, hdepth⟩ := List.forall_mem_cons.1 hdepth
    rw [List.cons_append, Tree.ofEntries, split]
    refine bind_eq_ok_iff.2 ⟨k, rfl, ?_⟩
    rw [if_neg hk]
    exact bind_eq_ok_iff.2
      ⟨v, Tree.toValue_ofValue hv, bind_eq_ok_iff.2 ⟨_, ih hkeys hdepth, rfl⟩⟩

variable (s : SkippedTest)

theorem exact_toValue : s.toValue.Exact := by
  refine .table fun e he => ?_
  rcases List.mem_append.1 he with he | he
  · exact s.test.exact_entries e he
  · cases List.mem_singleton.1 he
    exact .string _

theorem ofTree_toValue : ofTree (Tree.ofValue s.toValue) = .ok s := by
  have hkeys : ∀ e ∈ s.test.entries, e.1 ≠ "reason" := by
    rw [TestCase.entries_eq]
    refine List.forall_mem_map.2 fun f _ => ?_
    cases f <;> simp [TestCase.record]
  have hsplit := split_ofEntries s.reason hkeys fun e he =>
    (s.test.depth_entries_le e he).trans (by decide)
  have htest : TestCase.ofTree .buffered (.ofValue (.table s.test.entries)) = .ok s.test :=
    s.test.ofTree_toValue
  rw [toValue, Tree.ofValue, ofTree]
  exact bind_eq_ok_iff.2 ⟨_, hsplit, bind_eq_ok_iff.2 ⟨_, htest, rfl⟩⟩

end SkippedTest

/-! ## Summaries -/

namespace Summary

variable {s : Summary}

/-- What a summary holds. -/
def held (s : Summary) : (f : Field) → f.Holds
  | .selectedCount => s.selectedCount
  | .skippedCount => s.skippedCount
  | .selected => s.selected
  | .skipped => s.skipped

/-- What is written for a field. -/
def heldValue (s : Summary) : Field → Value
  | .selectedCount => .int s.selectedCount
  | .skippedCount => .int s.skippedCount
  | .selected => .array (s.selected.map TestCase.toValue)
  | .skipped => .array (s.skipped.map SkippedTest.toValue)

/-- The counts fit into 64 bits. -/
def Countable (s : Summary) : Prop :=
  s.selectedCount < UInt64.size ∧ s.skippedCount < UInt64.size

theorem asCount_int {n : Nat} (h : n < UInt64.size) :
    (Tree.ofValue (.int n)).asCount = .ok n := by
  have hrange : (0 : Int) ≤ n ∧ (n : Int) < UInt64.size := ⟨Int.natCast_nonneg n, Int.ofNat_lt.2 h⟩
  rw [Tree.ofValue, Tree.asCount, if_pos hrange, Int.toNat_natCast]

theorem readField_heldValue (h : s.Countable) (f : Field) :
    readField f (Tree.ofValue (s.heldValue f)) = .ok (s.held f) := by
  cases f with
  | selectedCount => exact @asCount_int s.selectedCount h.1
  | skippedCount => exact @asCount_int s.skippedCount h.2
  | selected => exact Tree.each_ofValue fun t _ => t.ofTree_toValue
  | skipped => exact Tree.each_ofValue fun t _ => t.ofTree_toValue

theorem toValue_eq (s : Summary) :
    s.toValue = .table ([.selectedCount, .skippedCount, .selected, .skipped].map fun f =>
      (record.name f, s.heldValue f)) := rfl

theorem exact_count {n : Nat} (h : n < UInt64.size) : (Value.int n).Exact := by
  have hlow : Int64.minValue.toInt ≤ 0 := by decide
  exact .int (hlow.trans (Int.natCast_nonneg n)) (Int.ofNat_lt.2 h)

theorem exact_toValue (h : s.Countable) : s.toValue.Exact := by
  rw [toValue_eq]
  refine .table (List.forall_mem_map.2 fun f _ => ?_)
  cases f with
  | selectedCount => exact exact_count h.1
  | skippedCount => exact exact_count h.2
  | selected => exact .array (List.forall_mem_map.2 fun t _ => .table t.exact_entries)
  | skipped => exact .array (List.forall_mem_map.2 fun t _ => t.exact_toValue)

theorem ofTree_toValue (h : s.Countable) : ofTree (Tree.ofValue s.toValue) = .ok s := by
  have hname (f : Field) : record.field? (record.name f) = some f := by cases f <;> rfl
  rw [toValue_eq, ofTree, Tree.record_written (by decide) (fun f _ => hname f)
    fun f _ => readField_heldValue h f]
  rfl

/-- A summary that was written is read as what it was. -/
theorem ofString_write (layout : Layout) (h : s.Countable) :
    ofString (Json.write layout s.toValue) = .ok s :=
  Document.read_write layout (exact_toValue h) (ofTree_toValue h)

end Summary

/-! ## The order of the list -/

/-- Selected tests and skipped ones, each in order, make up a list of tests with their verdicts:
each test of the list is the next selected one, or the next skipped one with its reason. -/
inductive Interleaves : List TestCase → List SkippedTest → List (TestCase × Verdict) → Prop
  | nil : Interleaves [] [] []
  | selected (t : TestCase) {selected : List TestCase} {skipped : List SkippedTest}
      {verdicts : List (TestCase × Verdict)} (h : Interleaves selected skipped verdicts) :
      Interleaves (t :: selected) skipped ((t, .selected) :: verdicts)
  | skipped (t : TestCase) (reason : SkipReason) {selected : List TestCase}
      {skipped : List SkippedTest} {verdicts : List (TestCase × Verdict)}
      (h : Interleaves selected skipped verdicts) :
      Interleaves selected (⟨t, reason⟩ :: skipped) ((t, .skipped reason) :: verdicts)

theorem Interleaves.length {selected : List TestCase} {skipped : List SkippedTest}
    {verdicts : List (TestCase × Verdict)} (h : Interleaves selected skipped verdicts) :
    selected.length + skipped.length = verdicts.length := by
  induction h with
  | nil => rfl
  | selected t _ ih => rw [List.length_cons, List.length_cons, ← ih, Nat.add_right_comm]
  | skipped t reason _ ih => rw [List.length_cons, List.length_cons, ← ih, Nat.add_assoc]

namespace Selection

variable (s : Selection)

theorem interleaves : Interleaves s.selected s.skipped s.verdicts := by
  obtain ⟨verdicts⟩ := s
  induction verdicts with
  | nil => exact .nil
  | cons v vs ih =>
    obtain ⟨t, verdict⟩ := v
    cases verdict with
    | selected => exact .selected t ih
    | skipped reason => exact .skipped t reason ih

/-- In a list with fewer than `2 ^ 64` tests, both counts fit into 64 bits. -/
theorem countable_summary (h : s.total < UInt64.size) : s.summary.Countable := by
  have hlength : s.selected.length + s.skipped.length = s.total := s.interleaves.length
  exact ⟨by simp only [summary]; omega, by simp only [summary]; omega⟩

/-! ## Reports -/

/-- A report in JSON is the text of the summary, with colours or without. -/
theorem write_json (layout : Layout) (color : Bool) :
    s.write (.json layout) color (.ofDevice .endless) =
      (⟨.endless, (Json.write layout s.summary.toValue).toUTF8.toList.reverse⟩, .ok ()) := by
  rw [write_endless, text, pieces, String.join_cons, String.join_nil, String.append_empty]

end Selection

namespace Sample

/-- A test without a package, with quotes and a line break in its names, and with annotations that
have an empty value or none. -/
def oddTest : TestCase :=
  ⟨"", "Größe\"", "a\n", [⟨"Tag", some ""⟩, ⟨"Slow", none⟩]⟩

/-- The test twice, and another one that is skipped between them. -/
def selection : Selection :=
  ⟨[(oddTest, .selected), (.ofNames "com.other" "FooTest" "testA", .skipped .blocklisted),
    (oddTest, .selected)]⟩

end Sample

/-- **Reports for programs are lossless.** What is delivered is text that is read as the summary.
The summary has each test of the selection once, in order and with its verdict, and a selector gives
one verdict to each test of a list, in order. And a test list that was written is read as what it
was. A list in memory has fewer than `2 ^ 64` items. -/
theorem Selection.report_lossless (s : Selection) (h : s.total < UInt64.size) (layout : Layout)
    (color : Bool) :
    (∃ sink text,
      s.write (.json layout) color (.ofDevice .endless) = (sink, .ok ()) ∧
        Utf8.decode? sink.delivered = some text ∧ Summary.ofString text = .ok s.summary) ∧
      (∃ selected skipped,
        s.summary = ⟨selected.length, skipped.length, selected, skipped⟩ ∧
          Interleaves selected skipped s.verdicts) ∧
      (∀ (selector : Selector) (tests : List TestCase),
        (selector.select tests).verdicts = tests.map fun t => (t, selector.verdict t)) ∧
      ∀ l : TestList, TestList.ofString (Json.write layout l.toValue) = .ok l := by
  refine ⟨?_, ⟨s.selected, s.skipped, rfl, s.interleaves⟩, fun selector tests => ?_,
    fun l => l.ofString_write layout⟩
  · refine ⟨_, Json.write layout s.summary.toValue, s.write_json layout color, ?_, ?_⟩
    · rw [Sink.delivered_endless, List.reverse_reverse, Utf8.decode?_toUTF8]
    · exact Summary.ofString_write layout (s.countable_summary h)
  · rw [Selector.select_eq_map]

/-- A report on three tests, read again, counts two selected ones and a skipped one. -/
theorem Selection.report_lossless_sample :
    Sample.selection.total < UInt64.size ∧
      ∃ sink text,
        Sample.selection.write (.json .pretty) true (.ofDevice .endless) = (sink, .ok ()) ∧
          Utf8.decode? sink.delivered = some text ∧
          Summary.ofString text =
            .ok ⟨2, 1, [Sample.oddTest, Sample.oddTest],
              [⟨.ofNames "com.other" "FooTest" "testA", .blocklisted⟩]⟩ := by
  have htotal : Sample.selection.total < UInt64.size := by decide
  exact ⟨htotal, (Sample.selection.report_lossless htotal .pretty true).1⟩

end TestSelection
