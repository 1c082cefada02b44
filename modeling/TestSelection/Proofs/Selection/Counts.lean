import Mathlib.Tactic.SplitIfs
import TestSelection.Proofs.Output.Sink
import TestSelection.Proofs.Selection.Listing
import TestSelection.Proofs.Selection.Lossless
import TestSelection.Proofs.Selection.Policy

/-!
# Counts

The numbers of selected and of skipped tests are told in four places: in the summary, at the end of
a verbose report, in the line with the counts, and by the number of lines of a report that is not
verbose. Each place counts in its own way.

**Theorem (`Selector.counts_agree`).** All places tell the numbers of tests with each verdict.

A selection gives each test one of three verdicts, so the numbers of tests with each of them
(`Selection.tally`) add up to the number of all tests (`Selection.tally_add_tally`). Each count is
then compared with these numbers.
-/

namespace TestSelection

/-! ## Tallies -/

namespace Selection

/-- The number of tests with a verdict. -/
def tally (s : Selection) (v : Verdict) : Nat := s.verdicts.countP fun x => x.2 = v

variable {s : Selection}

theorem tally_add_tally (s : Selection) :
    s.tally .selected + (s.tally (.skipped .blocklisted) + s.tally (.skipped .notAllowlisted)) =
      s.total := by
  rw [tally, tally, tally, total]
  induction s.verdicts with
  | nil => rfl
  | cons x rest ih =>
    obtain ⟨t, v⟩ := x
    simp only [List.countP_cons, List.length_cons, ← ih]
    rcases v with _ | _ | _ <;> simp <;> omega

theorem selectedCount_eq_tally (s : Selection) : s.selectedCount = s.tally .selected := by
  rw [selectedCount, selected, List.length_map, ← List.countP_eq_length_filter, tally]
  refine List.countP_congr fun x _ => ?_
  rw [Verdict.isSelected_iff, decide_eq_true_iff]

theorem countSkipped_eq_tally (s : Selection) (reason : SkipReason) :
    s.countSkipped reason = s.tally (.skipped reason) := by
  rw [countSkipped, skipped, List.countP_filterMap, tally]
  refine List.countP_congr fun x _ => ?_
  obtain ⟨t, v⟩ := x
  cases v <;> simp [Verdict.reason?]

/-- There are not more selected tests than tests. -/
theorem selectedCount_le_total (s : Selection) : s.selectedCount ≤ s.total := by
  rw [selectedCount_eq_tally, ← tally_add_tally]
  exact Nat.le_add_right _ _

/-- The skipped tests are those with one of the two reasons. -/
theorem skippedCount_eq_tally (s : Selection) :
    s.skippedCount = s.tally (.skipped .blocklisted) + s.tally (.skipped .notAllowlisted) := by
  rw [skippedCount, selectedCount_eq_tally, ← tally_add_tally]
  exact Nat.add_sub_cancel_left _ _

theorem selectedCount_add_skippedCount (s : Selection) :
    s.selectedCount + s.skippedCount = s.total :=
  Nat.add_sub_of_le s.selectedCount_le_total

/-- The summary lists the skipped tests. -/
theorem length_skipped (s : Selection) : s.skipped.length = s.skippedCount := by
  have hlength : s.selected.length + s.skipped.length = s.total := s.interleaves.length
  have hadd := s.selectedCount_add_skippedCount
  rw [selectedCount] at hadd
  omega

end Selection

/-- Of a list, a selector gives a verdict to as many tests as it gives it to alone. -/
theorem Selector.tally_select (s : Selector) (tests : List TestCase) (v : Verdict) :
    (s.select tests).tally v = tests.countP fun t => s.verdict t = v := by
  rw [select_eq_map, Selection.tally, List.countP_map]
  rfl

/-! ## Lines -/

/-- The reasons in brackets, each with its number, and nothing where both numbers are zero. -/
def CountStyles.reasons (styles : CountStyles) : Nat → Nat → String
  | 0, 0 => ""
  | blocklisted, 0 => " (" ++ styles.skipped.apply (toString blocklisted) ++ " blocklisted)"
  | 0, notAllowlisted =>
    " (" ++ styles.skipped.apply (toString notAllowlisted) ++ " not in allowlist)"
  | blocklisted, notAllowlisted =>
    " (" ++ styles.skipped.apply (toString blocklisted) ++ " blocklisted, " ++
      styles.skipped.apply (toString notAllowlisted) ++ " not in allowlist)"

namespace Selection

theorem countLine_eq (styles : CountStyles) (s : Selection) :
    s.countLine styles =
      "selected " ++ styles.selected.apply (toString s.selectedCount) ++ " of " ++
        toString s.total ++ (if s.total = 1 then " test" else " tests") ++
        styles.reasons (s.countSkipped .blocklisted) (s.countSkipped .notAllowlisted) := by
  have hnoun (n : Nat) : " " ++ (if n = 1 then "test" else "tests") =
      if n = 1 then " test" else " tests" := by
    split_ifs <;> rfl
  rw [countLine, selectedCount_add_skippedCount, ← hnoun]
  refine String.toList_inj.1 ?_
  cases s.countSkipped .blocklisted <;> cases s.countSkipped .notAllowlisted <;>
    simp [countPart, CountStyles.reasons]

/-! ## Reports -/

/-- A verbose report has a line for each test and then the two numbers. -/
theorem text_lines_verbose (s : Selection) (color : Bool) :
    let styles := if color then ReportStyles.colored else .plain
    s.text (.lines true) color =
      String.join (s.verdicts.map fun v => String.join (linePieces styles true v)) ++
        (styles.count.apply (toString s.selectedCount) ++ " of " ++
          styles.count.apply (toString s.total) ++ " tests selected\n") := by
  intro styles
  refine String.toList_inj.1 ?_
  simp [text, pieces, footPieces, styles, List.flatMap_assoc, List.flatMap_map]

/-- A report that is neither verbose nor coloured has the names of the selected tests on its
lines. -/
theorem text_lines_plain (s : Selection) :
    s.text (.lines false) false =
      String.join (s.selected.map fun t => t.qualifiedName ++ "\n") := by
  have hpieces : s.pieces (.lines false) false = s.verdicts.flatMap (linePieces .plain false) :=
    List.append_nil _
  refine String.toList_inj.1 ?_
  rw [text, hpieces, flatMap_linePieces]
  simp only [String.toList_join, List.flatMap_assoc, List.flatMap_map, ← TestCase.join_namePieces]
  simp

/-- A report for programs gives the two numbers, and lists as many tests. -/
theorem text_json (s : Selection) (layout : Json.Layout) (color : Bool) :
    s.text (.json layout) color =
      Json.write layout (.table
        [("selected-count", .int s.selectedCount), ("skipped-count", .int s.skippedCount),
          ("selected", .array (s.selected.map TestCase.toValue)),
          ("skipped", .array (s.skipped.map SkippedTest.toValue))]) := by
  rw [text, pieces, String.join_cons, String.join_nil, String.append_empty, ← length_skipped]
  rfl

end Selection

/-! ## Agreement -/

/-- **All counts agree.** In a selection from a list, let `k` tests be selected, `b` blocklisted and
`a` not in the allowlist, out of `n`. The counts of the selection are `k` and `b + a`, and these are
all tests. The summary gives these two numbers, and lists as many tests. A verbose report ends with
`k` of `n`. The line with the counts tells `k`, `n`, and those of `b` and `a` that are not zero. A
report that is neither verbose nor coloured has `k` lines, with the names of the selected tests in
order. -/
theorem Selector.counts_agree (selector : Selector) (tests : List TestCase) :
    let s := selector.select tests
    let n := tests.length
    let k := tests.countP fun t => selector.verdict t = .selected
    let b := tests.countP fun t => selector.verdict t = .skipped .blocklisted
    let a := tests.countP fun t => selector.verdict t = .skipped .notAllowlisted
    (s.total = n ∧ s.selectedCount = k ∧ k ≤ n ∧ s.skippedCount = b + a ∧
        s.selectedCount + s.skippedCount = n ∧
        s.countSkipped .blocklisted = b ∧ s.countSkipped .notAllowlisted = a) ∧
      (∀ format color, ∃ sink, s.write format color (.ofDevice .endless) = (sink, .ok ()) ∧
        sink.delivered = (s.text format color).toUTF8.toList) ∧
      (∀ layout color, ∃ selected skipped : List Value,
        selected.length = k ∧ skipped.length = b + a ∧
          s.text (.json layout) color =
            Json.write layout (.table
              [("selected-count", .int k), ("skipped-count", .int (b + a : Nat)),
                ("selected", .array selected), ("skipped", .array skipped)])) ∧
      (∀ color : Bool,
        let styles := if color then ReportStyles.colored else .plain
        s.text (.lines true) color =
          String.join (tests.map fun t =>
              String.join (linePieces styles true (t, selector.verdict t))) ++
            (styles.count.apply (toString k) ++ " of " ++ styles.count.apply (toString n) ++
              " tests selected\n")) ∧
      (∀ styles, s.countLine styles =
        "selected " ++ styles.selected.apply (toString k) ++ " of " ++ toString n ++
          (if n = 1 then " test" else " tests") ++ styles.reasons b a) ∧
      ∃ records : List String,
        records = (tests.filter fun t => selector.verdict t = .selected).map
            (fun t => t.qualifiedName ++ "\n") ∧
          records.length = k ∧ s.text (.lines false) false = String.join records := by
  intro s n k b a
  have htotal : s.total = n := by
    simp only [s, n, select_eq_map, Selection.total, List.length_map]
  have hk : s.selectedCount = k := s.selectedCount_eq_tally.trans (selector.tally_select tests _)
  have hb : s.countSkipped .blocklisted = b :=
    (s.countSkipped_eq_tally _).trans (selector.tally_select tests _)
  have ha : s.countSkipped .notAllowlisted = a :=
    (s.countSkipped_eq_tally _).trans (selector.tally_select tests _)
  have hskipped : s.skippedCount = b + a := by
    rw [s.skippedCount_eq_tally, ← s.countSkipped_eq_tally, ← s.countSkipped_eq_tally, hb, ha]
  have hselected : s.selected = tests.filter fun t => selector.verdict t = .selected := by
    rw [selected_select]
    refine List.filter_congr fun t _ => ?_
    rw [Bool.eq_iff_iff, Verdict.isSelected_iff, decide_eq_true_iff]
  refine ⟨⟨htotal, hk, List.countP_le_length, hskipped, ?_, hb, ha⟩, s.exists_delivered,
    fun layout color => ?_, fun color => ?_, fun styles => ?_, _, rfl, ?_, ?_⟩
  · rw [s.selectedCount_add_skippedCount, htotal]
  · refine ⟨s.selected.map TestCase.toValue, s.skipped.map SkippedTest.toValue, ?_, ?_, ?_⟩
    · rw [List.length_map, ← hk, Selection.selectedCount]
    · rw [List.length_map, s.length_skipped, hskipped]
    · rw [s.text_json, hk, hskipped]
  · have hlines (f : TestCase × Verdict → String) :
        s.verdicts.map f = tests.map fun t => f (t, selector.verdict t) := by
      simp only [s, select_eq_map, List.map_map, Function.comp_def]
    intro styles
    rw [s.text_lines_verbose, hlines, hk, htotal]
  · rw [s.countLine_eq, hk, htotal, hb, ha]
  · rw [List.length_map]
    exact List.countP_eq_length_filter.symm
  · rw [s.text_lines_plain, hselected]

end TestSelection
