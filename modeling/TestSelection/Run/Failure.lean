import TestSelection.Config
import TestSelection.Log
import TestSelection.Selection.Report
import TestSelection.Selection.Selector
import TestSelection.Test.File
import TestSelection.Text.Wrap

/-!
# How a run fails

A run fails for one of a few reasons, each with its exit code. The user is told what failed, and
then the causes, from the outermost to the innermost.

A rule that is not in order is shown as a short report, with advice if there is any. The report is
broken into lines for a terminal of a usual width.
-/

namespace TestSelection

/-! ## Reports on rules -/

/-- The width of a line of a report. -/
def reportWidth : Nat := 78

namespace InvalidRule

/-- The lines of a text, the first one after a mark and the others after a bar. -/
def reportLines (style : Style) (text : String) : String :=
  let mark := "error:"
  let bar := "│"
  let indent (sign : String) : Nat := sign.length + 3
  let lines := Text.wrap (reportWidth - indent mark) (reportWidth - indent bar) text
  match lines with
  | [] => ""
  | line :: rest =>
    "  " ++ style.apply mark ++ " " ++ line ++ "\n" ++
      String.join (rest.map fun line => "  " ++ style.apply bar ++ " " ++ line ++ "\n")

/-- A report on a rule that is not in order. -/
def report (color : Bool) (e : InvalidRule) : String :=
  let style (s : Style) : Style := if color then s else .plain
  reportLines (style .red) e.message ++
    match e.help? with
    | some help => (style .cyan).apply "  help: " ++ help ++ "\n"
    | none => ""

end InvalidRule

/-! ## Failures -/

/-- Why a run fails. -/
inductive Failure where
  | config (e : ConfigError)
  | selector (e : SelectorError)
  | testList (e : TestListError)
  | report (e : ReportError)
  | json (cause : WriteFailure)
  | output (cause : WriteFailure)
  | nothingSelected

namespace Failure

/-- What failed, in few words. -/
def summary : Failure → String
  | .config _ => "config parse error"
  | .selector _ => "selector build error"
  | .testList _ => "test list read error"
  | .report _ => "error writing selection"
  | .json _ => "error writing JSON output"
  | .output _ => "error writing output"
  | .nothingSelected => "no tests were selected"

/-- The exit code after a failure. -/
def exitCode : Failure → Nat
  | .config _ => 97
  | .selector _ => 97
  | .testList _ => 104
  | .report _ => 110
  | .json _ => 110
  | .output _ => 110
  | .nothingSelected => 4

/-! ## Messages -/

/-- The causes of a configuration file that cannot be used. -/
def configCauses (file : Path) : ConfigFault → List String
  | .notFound => [missingConfigMessage file]
  | .notReadable => ["cannot read settings from " ++ file.text]
  | .misfit m => [m.place ++ ": " ++ m.message]
  | .invalid _ => []

/-- The causes of a rule that cannot be compiled. -/
def compileCauses (e : CompileError) : List String :=
  e.message ::
    match e with
    | .unreadable _ _ cause => [cause.message]
    | .invalid _ => []

/-- The causes of a test list that cannot be read. -/
def testListCauses : TestListError → List String
  | .unreadable _ cause => [cause.message]
  | .malformed _ (.mismatch m) => [m.message .json]
  | .malformed _ .notJson => ["syntax error"]

/-- What failed, with names in a style. -/
def headline (bold : Style) : Failure → String
  | .config ⟨file, .invalid e⟩ => "in config file `" ++ bold.apply file.text ++ "`, " ++
      e.message ++ ":"
  | .config ⟨file, _⟩ => "failed to parse filter config at `" ++ bold.apply file.text ++ "`"
  | .selector e => "failed to compile rule " ++ bold.apply (placeText e.list e.index)
  | .testList e => e.message
  | .report _ => "failed to write selection"
  | .json _ => "failed to write JSON output"
  | .output _ => "failed to write output"
  | .nothingSelected => "no tests were selected (--fail-if-empty was passed)"

/-- The causes of a failure, from the outermost to the innermost. -/
def causes : Failure → List String
  | .config e => configCauses e.file e.cause
  | .selector e => compileCauses e.cause
  | .testList e => testListCauses e
  | .report e => [e.message, e.cause.message]
  | .json cause => [cause.message]
  | .output cause => [cause.message]
  | .nothingSelected => []

/-- The report on the rule that is not in order, if that is what failed. -/
def reports (color : Bool) : Failure → List String
  | .config ⟨_, .invalid e⟩ => [e.cause.report color]
  | _ => []

/-- The messages on a failure. -/
def messages (color : Bool) (f : Failure) : List LogMessage :=
  let more := f.reports color ++ f.causes.map fun cause => "\nCaused by:\n  " ++ cause
  ⟨.error, .failures, f.headline (if color then .bold else .plain)⟩ ::
    more.map fun text => ⟨.error, .continuation, text⟩

end Failure

end TestSelection
