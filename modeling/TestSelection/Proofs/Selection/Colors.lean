import Mathlib.Data.List.Forall2
import Mathlib.Tactic.SplitIfs
import TestSelection.CommandLine
import TestSelection.Proofs.Output.Sink
import TestSelection.Proofs.Output.Style
import TestSelection.Proofs.Selection.Counts

/-!
# Colours

**Theorem (`Selection.color_decorates`).** Without its styles, a coloured report is the one without
colours, and so is the line with the counts. A report for programs is the same with and without
colours.

A report is written in pieces, and each piece is either a text in a style or stands between such
texts. So the pieces of a coloured report strip to those of a plain one, one by one
(`TestCase.strips_linePieces`, `Selection.strips_footPieces`), and then the whole report does. The
tests give texts to the pieces, and must not bring escape characters of their own.
-/

namespace TestSelection

open Style (StripsTo)

/-! ## Tests without escape characters -/

/-- No text of an annotation has an escape character. -/
structure Annotation.EscapeFree (a : Annotation) : Prop where
  name : '\x1b' ∉ a.name.toList
  value : ∀ value ∈ a.value, '\x1b' ∉ value.toList

/-- No text of a test has an escape character. -/
structure TestCase.EscapeFree (t : TestCase) : Prop where
  package : '\x1b' ∉ t.package.toList
  className : '\x1b' ∉ t.className.toList
  method : '\x1b' ∉ t.method.toList
  annotations : ∀ a ∈ t.annotations, a.EscapeFree

namespace Annotation

theorem EscapeFree.not_mem_text {a : Annotation} (h : a.EscapeFree) : '\x1b' ∉ a.text.toList := by
  obtain ⟨name, value⟩ := a
  have hname : '\x1b' ∉ name.toList := h.name
  cases value with
  | none => simpa [text] using hname
  | some value =>
    have hvalue : '\x1b' ∉ value.toList := h.value value rfl
    simpa [text] using ⟨hname, hvalue⟩

end Annotation

theorem escapeFree_toString (n : Nat) : '\x1b' ∉ (toString n).toList := by
  intro hmem
  rw [Nat.toString_eq_repr, Nat.toList_repr] at hmem
  exact absurd (Nat.isDigit_of_mem_toDigits (by decide) (by decide) hmem) (by decide)

theorem SkipReason.escapeFree_note (reason : SkipReason) :
    '\x1b' ∉ ("(skipped: " ++ reason.text ++ ")").toList := by
  cases reason <;> decide +kernel

/-! ## Pieces -/

/-- The codes of all styles are numbers. -/
structure ReportStyles.Numeric (styles : ReportStyles) : Prop where
  package : styles.package.Numeric
  className : styles.className.Numeric
  method : styles.method.Numeric
  annotation : styles.annotation.Numeric
  skipped : styles.skipped.Numeric
  count : styles.count.Numeric

theorem ReportStyles.numeric_colored : ReportStyles.colored.Numeric := by
  constructor <;> simp [colored, Style.Numeric, Style.and, Style.bold, Style.blue, Style.cyan,
    Style.dimmed, Style.magenta, Style.yellow]

section

variable {styles : ReportStyles} {t : TestCase}

theorem TestCase.strips_namePieces (hstyles : styles.Numeric) (ht : t.EscapeFree) :
    List.Forall₂ StripsTo (t.namePieces styles) (t.namePieces .plain) := by
  have hname : List.Forall₂ StripsTo
      [styles.className.apply t.className, "#", styles.method.apply t.method]
      [t.className, "#", t.method] :=
    .cons (.apply hstyles.className ht.className)
      (.cons (.of_not_mem (by decide)) (.cons (.apply hstyles.method ht.method) .nil))
  rw [namePieces, namePieces]
  split_ifs with hpackage
  · exact hname
  · exact .cons (.apply hstyles.package ht.package) (.cons (.of_not_mem (by decide)) hname)

theorem TestCase.strips_markPieces (hstyles : styles.Numeric) (ht : t.EscapeFree) :
    List.Forall₂ StripsTo (t.markPieces styles) (t.markPieces .plain) := by
  have hsame : List.Forall₂ (fun a b => a = b ∧ a.EscapeFree) t.annotations t.annotations :=
    List.forall₂_same.2 fun a ha => ⟨rfl, ht.annotations a ha⟩
  refine List.rel_flatMap hsame ?_
  rintro a _ ⟨rfl, ha⟩
  exact .cons (.of_not_mem (by decide)) (.cons (.apply hstyles.annotation ha.not_mem_text) .nil)

theorem TestCase.strips_linePieces (hstyles : styles.Numeric) (ht : t.EscapeFree) (verbose : Bool)
    (v : Verdict) :
    List.Forall₂ StripsTo (linePieces styles verbose (t, v))
      (linePieces .plain verbose (t, v)) := by
  have hname := strips_namePieces hstyles ht
  have hmarks := strips_markPieces hstyles ht
  have hnewline : List.Forall₂ StripsTo ["\n"] ["\n"] := .cons (.of_not_mem (by decide)) .nil
  cases v with
  | selected =>
    rw [linePieces, linePieces]
    refine List.rel_append (List.rel_append hname ?_) hnewline
    split_ifs
    · exact hmarks
    · exact .nil
  | skipped reason =>
    rw [linePieces, linePieces]
    split_ifs
    · exact List.rel_append (List.rel_append hname hmarks) (.cons (.of_not_mem (by decide))
        (.cons (.apply hstyles.skipped reason.escapeFree_note) hnewline))
    · exact .nil

namespace Selection

variable {s : Selection}

theorem strips_footPieces (hstyles : styles.Numeric) (s : Selection) :
    List.Forall₂ StripsTo (s.footPieces styles) (s.footPieces .plain) :=
  .cons (.apply hstyles.count (escapeFree_toString _)) (.cons (.of_not_mem (by decide))
    (.cons (.apply hstyles.count (escapeFree_toString _)) (.cons (.of_not_mem (by decide)) .nil)))

/-! ## Reports -/

/-- A coloured report has the text of the plain one between its styles. -/
theorem strips_text (h : ∀ v ∈ s.verdicts, v.1.EscapeFree) (verbose : Bool) :
    StripsTo (s.text (.lines verbose) true) (s.text (.lines verbose) false) := by
  have hstyles := ReportStyles.numeric_colored
  have hsame : List.Forall₂ (fun v w => v = w ∧ v.1.EscapeFree) s.verdicts s.verdicts :=
    List.forall₂_same.2 fun v hv => ⟨rfl, h v hv⟩
  refine StripsTo.join (List.rel_append (List.rel_flatMap hsame ?_) ?_)
  · rintro ⟨t, v⟩ _ ⟨rfl, ht⟩
    exact t.strips_linePieces hstyles ht verbose v
  · cases verbose with
    | false => exact .nil
    | true => exact s.strips_footPieces hstyles

end Selection

end

/-! ## Counts -/

theorem CountStyles.strips_reasons {styles : CountStyles} (hskipped : styles.skipped.Numeric)
    (blocklisted notAllowlisted : Nat) :
    StripsTo (styles.reasons blocklisted notAllowlisted)
      (CountStyles.plain.reasons blocklisted notAllowlisted) := by
  have hcount (n : Nat) : StripsTo (" (" ++ styles.skipped.apply (toString n))
      (" (" ++ CountStyles.plain.skipped.apply (toString n)) :=
    .append (.of_not_mem (by decide)) (.apply hskipped (escapeFree_toString n))
  have hnone : StripsTo "" "" := .of_not_mem (by decide)
  cases blocklisted with
  | zero =>
    cases notAllowlisted with
    | zero => exact hnone
    | succ a => exact .append (hcount _) (.of_not_mem (by decide))
  | succ b =>
    cases notAllowlisted with
    | zero => exact .append (hcount _) (.of_not_mem (by decide))
    | succ a =>
      exact .append (.append (.append (hcount _) (.of_not_mem (by decide)))
        (.apply hskipped (escapeFree_toString _))) (.of_not_mem (by decide))

/-- The coloured line with the counts has the plain one between its styles. -/
theorem Selection.strips_countLine (s : Selection) :
    StripsTo (s.countLine .colored) (s.countLine .plain) := by
  have hselected : CountStyles.colored.selected.Numeric := by
    simp [CountStyles.colored, Style.Numeric, Style.and, Style.bold, Style.green]
  have hskipped : CountStyles.colored.skipped.Numeric := by
    simp [CountStyles.colored, Style.Numeric, Style.and, Style.bold, Style.yellow]
  have hnoun : '\x1b' ∉ (if s.total = 1 then " test" else " tests").toList := by
    split_ifs <;> decide
  rw [countLine_eq, countLine_eq]
  refine .append (.append ?_ (.of_not_mem hnoun)) (CountStyles.strips_reasons hskipped _ _)
  refine .append (.append ?_ (.of_not_mem (by decide))) (.of_not_mem (escapeFree_toString _))
  exact .append (.of_not_mem (by decide)) (.apply hselected (escapeFree_toString _))

/-! ## Decoration -/

/-- **Colours are decoration.** Let the texts of the tests have no escape characters. What is
delivered of a report for people without colours is the text of the coloured one without its styles,
and so is the line with the counts. A report for programs is written in the same way with and
without colours, verbose or not. -/
theorem Selection.color_decorates (s : Selection) (h : ∀ v ∈ s.verdicts, v.1.EscapeFree) :
    (∀ verbose, ∃ colored plain text,
        s.write (OutputFormat.human.report verbose) true (.ofDevice .endless) =
            (colored, .ok ()) ∧
          s.write (OutputFormat.human.report verbose) false (.ofDevice .endless) =
            (plain, .ok ()) ∧
          colored.delivered = text.toUTF8.toList ∧
          plain.delivered = (Style.strip text).toUTF8.toList) ∧
      (∀ format ≠ OutputFormat.human, ∀ verbose verbose' color color' sink,
        s.write (format.report verbose) color sink =
          s.write (format.report verbose') color' sink) ∧
      Style.strip (s.countLine .colored) = s.countLine .plain := by
  refine ⟨fun verbose => ?_, fun format hformat verbose verbose' color color' sink => ?_,
    s.strips_countLine.strip_eq⟩
  · obtain ⟨colored, hcolored, hstyled⟩ := s.exists_delivered (.lines verbose) true
    obtain ⟨plain, hplain, htext⟩ := s.exists_delivered (.lines verbose) false
    refine ⟨colored, plain, s.text (.lines verbose) true, hcolored, hplain, hstyled, ?_⟩
    rw [htext, (strips_text h verbose).strip_eq]
  · cases format with
    | human => exact absurd rfl hformat
    | json => rfl
    | jsonPretty => rfl

namespace Sample

/-- A test with all that a line can have, and one that is skipped. -/
def colorSelection : Selection :=
  ⟨[(⟨"com.example", "FooTest", "[1m]", [⟨"Tag", some "0m"⟩, ⟨"Slow", none⟩]⟩, .selected),
    (.ofNames "" "Größe" "b", .skipped .blocklisted)]⟩

theorem escapeFree_colorSelection : ∀ v ∈ colorSelection.verdicts, v.1.EscapeFree := by
  have hfirst : TestCase.EscapeFree
      ⟨"com.example", "FooTest", "[1m]", [⟨"Tag", some "0m"⟩, ⟨"Slow", none⟩]⟩ := by
    refine ⟨by decide, by decide, by decide, ?_⟩
    simp only [List.forall_mem_cons]
    exact ⟨⟨by decide, by decide⟩, ⟨by decide, by decide⟩, List.forall_mem_nil _⟩
  have hsecond : (TestCase.ofNames "" "Größe" "b").EscapeFree :=
    ⟨by decide, by decide +kernel, by decide, List.forall_mem_nil _⟩
  simp only [colorSelection, List.forall_mem_cons]
  exact ⟨hfirst, hsecond, List.forall_mem_nil _⟩

end Sample

/-- The coloured line of two tests has two styles in it. -/
theorem Selection.color_decorates_sample :
    (∀ v ∈ Sample.colorSelection.verdicts, v.1.EscapeFree) ∧
      Sample.colorSelection.countLine .colored =
        "selected \x1b[32;1m1\x1b[0m of 2 tests (\x1b[33;1m1\x1b[0m blocklisted)" ∧
      Style.strip (Sample.colorSelection.countLine .colored) =
        "selected 1 of 2 tests (1 blocklisted)" := by
  obtain ⟨-, -, hline⟩ :=
    Selection.color_decorates Sample.colorSelection Sample.escapeFree_colorSelection
  refine ⟨Sample.escapeFree_colorSelection, by decide +kernel, hline.trans (by decide +kernel)⟩

end TestSelection
