import TestSelection.Json.Printer
import TestSelection.Path
import TestSelection.Selection.Report

/-!
# What can be asked for

The program checks a configuration file, selects tests with it, or shows it as JSON. How much is
shown and whether it is coloured can be said for all three.
-/

namespace TestSelection

/-- When output is coloured. -/
inductive ColorChoice where
  /-- If the environment wants it. -/
  | auto
  | always
  | never
deriving DecidableEq, Repr, Inhabited

/-- How a selection is written. -/
inductive OutputFormat where
  | human
  | json
  | jsonPretty
deriving DecidableEq, Repr, Inhabited

/-- The report of an output format. -/
def OutputFormat.report (verbose : Bool) : OutputFormat → ReportFormat
  | .human => .lines verbose
  | .json => .json .compact
  | .jsonPretty => .json .pretty

/-- What a selection needs to know. -/
structure SelectOptions where
  config : Path
  tests : Path
  format : OutputFormat
  /-- Whether it is an error if no test is selected. -/
  failIfEmpty : Bool
deriving DecidableEq, Repr

/-- What to do. -/
inductive Command where
  | validate (config : Path)
  | select (options : SelectOptions)
  | showConfig (config : Path)
deriving DecidableEq, Repr

/-- What to do, and how to show it. -/
structure Invocation where
  verbose : Bool
  color : ColorChoice
  command : Command
deriving DecidableEq, Repr

/-- The configuration file of a command. -/
def Command.config : Command → Path
  | .validate config => config
  | .select options => options.config
  | .showConfig config => config

end TestSelection
