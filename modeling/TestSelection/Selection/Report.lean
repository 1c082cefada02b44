import TestSelection.Json.Printer
import TestSelection.Output.Sink
import TestSelection.Output.Style
import TestSelection.Selection

/-!
# Reports of a selection

A report for people has a line for each selected test. A verbose one has a line for each test, with
its annotations, the reason if the test is skipped, and the counts at the end. A report for
programs is the summary in JSON, and is the same with and without colours.

`Selection.countLine` says in one line how many tests were selected and why the others were not.
-/

namespace TestSelection

/-- A form of report. -/
inductive ReportFormat where
  | lines (verbose : Bool)
  | json (layout : Json.Layout)
deriving DecidableEq, Repr

/-- The styles of the parts of a report. -/
structure ReportStyles where
  package : Style
  className : Style
  method : Style
  annotation : Style
  skipped : Style
  count : Style
deriving DecidableEq, Repr

namespace ReportStyles

def plain : ReportStyles := ⟨.plain, .plain, .plain, .plain, .plain, .plain⟩

def colored : ReportStyles :=
  { package := .cyan
    className := Style.magenta.and .bold
    method := Style.blue.and .bold
    annotation := .yellow
    skipped := .dimmed
    count := .bold }

end ReportStyles

/-! ## Lines -/

/-- The pieces of a test's name. -/
def TestCase.namePieces (styles : ReportStyles) (t : TestCase) : List String :=
  (if t.package = "" then [] else [styles.package.apply t.package, "."]) ++
    [styles.className.apply t.className, "#", styles.method.apply t.method]

/-- The pieces of a test's annotations, each after a space. -/
def TestCase.markPieces (styles : ReportStyles) (t : TestCase) : List String :=
  t.annotations.flatMap fun a => [" ", styles.annotation.apply a.text]

/-- The pieces of the line of a test. -/
def linePieces (styles : ReportStyles) (verbose : Bool) : TestCase × Verdict → List String
  | (t, .selected) =>
    t.namePieces styles ++ (if verbose then t.markPieces styles else []) ++ ["\n"]
  | (t, .skipped reason) =>
    if verbose then
      t.namePieces styles ++ t.markPieces styles ++
        [" ", styles.skipped.apply ("(skipped: " ++ reason.text ++ ")"), "\n"]
    else []

namespace Selection

/-- The pieces of the line with the counts. -/
def footPieces (styles : ReportStyles) (s : Selection) : List String :=
  [styles.count.apply (toString s.selectedCount), " of ", styles.count.apply (toString s.total),
    " tests selected\n"]

/-- The pieces of a report. The summary in JSON is one piece here, though it is written in many: how
a text is cut makes no difference to what a sink takes of it (`Sink.write_eq_put`). -/
def pieces (format : ReportFormat) (color : Bool) (s : Selection) : List String :=
  match format with
  | .lines verbose =>
    let styles := if color then ReportStyles.colored else .plain
    s.verdicts.flatMap (linePieces styles verbose) ++
      if verbose then s.footPieces styles else []
  | .json layout => [Json.write layout s.summary.toValue]

/-- The text of a report. -/
def text (format : ReportFormat) (color : Bool) (s : Selection) : String :=
  String.join (s.pieces format color)

end Selection

/-! ## Writing -/

/-- A report that could not be written. -/
structure ReportError where
  format : ReportFormat
  cause : WriteFailure
deriving DecidableEq, Repr

/-- The wording of a failure. -/
def ReportError.message (e : ReportError) : String :=
  match e.format with
  | .lines _ => "error writing to output"
  | .json _ => "error serializing to JSON"

/-- Write a report. -/
def Selection.write (s : Selection) (format : ReportFormat) (color : Bool) (sink : Sink) :
    Sink × Except ReportError Unit :=
  let (sink, result) := sink.write (s.pieces format color)
  (sink, result.mapError fun cause => ⟨format, cause⟩)

/-! ## Counts -/

/-- The styles of the line with the counts. -/
structure CountStyles where
  selected : Style
  skipped : Style
deriving DecidableEq, Repr

namespace CountStyles

def plain : CountStyles := ⟨.plain, .plain⟩

def colored : CountStyles := ⟨Style.green.and .bold, Style.yellow.and .bold⟩

end CountStyles

namespace Selection

/-- A number of skipped tests with the reason, if there are any. -/
def countPart (styles : CountStyles) (count : Nat) (reason : String) : List String :=
  if 0 < count then [styles.skipped.apply (toString count) ++ " " ++ reason] else []

/-- How many tests were selected, and how many were skipped for which reason. -/
def countLine (styles : CountStyles) (s : Selection) : String :=
  let total := s.selectedCount + s.skippedCount
  let noun := if total = 1 then "test" else "tests"
  let line := "selected " ++ styles.selected.apply (toString s.selectedCount) ++ " of " ++
    toString total ++ " " ++ noun
  let reasons := countPart styles (s.countSkipped .blocklisted) "blocklisted" ++
    countPart styles (s.countSkipped .notAllowlisted) "not in allowlist"
  if reasons.isEmpty then line else line ++ " (" ++ ", ".intercalate reasons ++ ")"

end Selection

end TestSelection
