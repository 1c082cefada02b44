import TestSelection.CommandLine.Arguments
import TestSelection.Log.Filter
import TestSelection.Run

/-!
# The program

The program reads its arguments, follows them, and ends with an exit code. What it writes to the
standard output is the result of the run, and the messages go to the standard error output as far
as the log filter wants them.
-/

namespace TestSelection

namespace Program

/-- The name of the program and its version. -/
def versionLine : String := "testsieve 0.1.0\n"

/-- How the program is called. -/
def usage : String :=
  "Select tests using declarative allowlist and blocklist rules\n\n" ++
  "Usage: testsieve [OPTIONS] <COMMAND>\n\n" ++
  "Commands:\n" ++
  "  validate     Check a filter config for errors\n" ++
  "  select       Select tests from a list\n" ++
  "  show-config  Print a filter config as JSON, after parsing and validation\n" ++
  "  help         Print this message or the help of the given subcommand(s)\n\n" ++
  "Options:\n" ++
  "  -v, --verbose       Verbose output\n" ++
  "      --color <WHEN>  Produce color output: auto, always, never\n" ++
  "  -h, --help          Print help\n" ++
  "  -V, --version       Print version\n"

/-- How the program ends. -/
structure Ending where
  exitCode : Nat
  output : List UInt8
  errors : String

/-- The text for arguments that cannot be followed: for the output, and for the errors. -/
def argumentTexts : CommandLine.ArgumentError → String × String
  | .help => (usage, "")
  | .version => (versionLine, "")
  | .helpForNothing => ("", usage)
  | _ => ("", "error: the arguments are not valid\n\nFor more information, try '--help'.\n")

/-- End before there is anything to run. -/
def refuse (device : Device) (e : CommandLine.ArgumentError) : Ending :=
  let (output, errors) := argumentTexts e
  let (sink, _) := (Sink.ofDevice device).write [output]
  ⟨e.exitCode, sink.delivered, errors⟩

/-- The messages that are wanted, as they are written. -/
def writeLog (filter : LogFilter) (color : Bool) (log : List LogMessage) : String :=
  String.join ((log.filter filter.wants).map fun m => m.write color)

/-- Follow an invocation. -/
def follow (env : Environment) (access : FileAccess) (device : Device) (inv : Invocation) :
    Ending :=
  let wantsColor := env.wantsColor
  let color := inv.color.applies wantsColor
  let (filter, warnings) := LogFilter.ofEnvironment env
  let outcome := inv.run access wantsColor (.ofDevice device)
  let failure :=
    match outcome.result with
    | .ok () => []
    | .error e => e.messages color
  ⟨outcome.exitCode, outcome.sink.delivered,
    writeLog filter color (warnings ++ outcome.log ++ failure)⟩

/-- Run the program. -/
def run (env : Environment) (args : List String) (access : FileAccess) (device : Device) :
    Ending :=
  match CommandLine.parse env args with
  | .error e => refuse device e
  | .ok inv => follow env access device inv

/-! ## What is read -/

/-- The files that may hold the configuration. -/
def configFiles (inv : Invocation) : List Path :=
  let file := inv.command.config
  file :: (Config.otherPath? file).toList

/-- The files that are read once the configuration is known. -/
def otherFiles (access : FileAccess) (inv : Invocation) : List Path :=
  match inv.command, (Config.load access inv.command.config).result with
  | .select options, .ok c =>
    let cx := c.context access
    options.tests ::
      (c.spec.rules.flatMap fun (_, _, r) => r.files).map fun (_, file) => cx.resolve file
  | _, _ => []

end Program

end TestSelection
