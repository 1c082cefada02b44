import TestSelection.CommandLine
import TestSelection.Environment

/-!
# Options of the command line

Each command has its own options, and some options can stand before the command as well. An option
is written in a long form, and perhaps in a short one of a single letter. Some options can be given
by a variable of the environment.
-/

namespace TestSelection.CommandLine

/-- An option. -/
inductive Opt where
  | help
  | version
  | verbose
  | color
  | config
  | tests
  | format
  | failIfEmpty
deriving DecidableEq, Repr

namespace Opt

/-- The long form, without its dashes. -/
def long : Opt → String
  | .help => "help"
  | .version => "version"
  | .verbose => "verbose"
  | .color => "color"
  | .config => "config"
  | .tests => "tests"
  | .format => "message-format"
  | .failIfEmpty => "fail-if-empty"

/-- The short form, without its dash. -/
def short? : Opt → Option Char
  | .help => some 'h'
  | .version => some 'V'
  | .verbose => some 'v'
  | .config => some 'c'
  | .format => some 'T'
  | .color | .tests | .failIfEmpty => none

/-- Whether a value belongs to the option. -/
def takesValue : Opt → Bool
  | .color | .config | .tests | .format => true
  | .help | .version | .verbose | .failIfEmpty => false

/-- The variable that can stand for the option. -/
def envName? : Opt → Option String
  | .verbose => some "TESTSIEVE_VERBOSE"
  | .color => some "TESTSIEVE_COLOR"
  | .config => some "TESTSIEVE_CONFIG"
  | .help | .version | .tests | .format | .failIfEmpty => none

/-- The values that an option can have, if they are limited. -/
def choices? : Opt → Option (List String)
  | .verbose | .failIfEmpty | .help | .version => some ["true", "false"]
  | .color => some ["auto", "always", "never"]
  | .format => some ["human", "json", "json-pretty"]
  | .config | .tests => none

/-- Whether an option can have a value. -/
def allows (o : Opt) (value : String) : Bool := o.choices?.all (·.contains value)

end Opt

/-! ## Where options stand -/

/-- A part of the command line: what stands before the command, or what stands after it. -/
inductive Level where
  | top
  | validate
  | select
  | showConfig
deriving DecidableEq, Repr

/-- The options of a part. -/
def Level.options : Level → List Opt
  | .top => [.help, .version, .verbose, .color]
  | .validate | .showConfig => [.help, .verbose, .color, .config]
  | .select => [.help, .verbose, .color, .config, .tests, .format, .failIfEmpty]

/-- The word that starts a part. -/
def Level.word? : Level → Option String
  | .top => none
  | .validate => some "validate"
  | .select => some "select"
  | .showConfig => some "show-config"

/-- The part that a word starts. -/
def Level.ofWord? (word : String) : Option Level :=
  [Level.validate, .select, .showConfig].find? fun l => l.word? = some word

/-- The word that asks for help on commands. -/
def helpWord : String := "help"

end TestSelection.CommandLine
