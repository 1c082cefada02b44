import TestSelection.Output.Style

/-!
# Messages of a run

Beside its output, a run gives messages. A message has a level and comes from a part of the
program. It is written with its level in front, except for plain information and for messages that
continue another one.

Control characters with which a terminal could be driven are written as escapes, so that the text
of a message cannot do so; this also concerns styles in the text.
-/

namespace TestSelection

/-- How important a message is, and how much is wanted: from nothing to everything. -/
inductive LogLevel where
  | off
  | error
  | warning
  | info
  | debug
  | trace
deriving DecidableEq, Repr, Inhabited

/-- The rank of a level. -/
def LogLevel.rank : LogLevel → Nat
  | .off => 0
  | .error => 1
  | .warning => 2
  | .info => 3
  | .debug => 4
  | .trace => 5

/-- A part of the program that gives messages. -/
inductive LogOrigin where
  | setup
  | commands
  | failures
  /-- Continues the message before. -/
  | continuation
  | configuration
  | selector
  | testList
  | rules
deriving DecidableEq, Repr, Inhabited

/-- The name by which a part is chosen in a log filter. -/
def LogOrigin.name : LogOrigin → String
  | .setup => "testsieve::output"
  | .commands => "testsieve::dispatch"
  | .failures => "testsieve::errors"
  | .continuation => "testsieve::no_heading"
  | .configuration => "testsieve_runner::config"
  | .selector => "testsieve_runner::selector"
  | .testList => "testsieve_runner::test_list"
  | .rules => "testsieve_filtering::compile"

/-- A message. -/
structure LogMessage where
  level : LogLevel
  origin : LogOrigin
  text : String
deriving DecidableEq, Repr, Inhabited

namespace LogMessage

/-! ## Headings -/

/-- The word for a level, and its style. -/
def heading? : LogLevel → Option (String × Style)
  | .off => none
  | .error => some ("error", Style.red.and .bold)
  | .warning => some ("warning", Style.yellow.and .bold)
  | .info => none
  | .debug => some ("debug", .dimmed)
  | .trace => some ("trace", .dimmed)

/-- What stands in front of a message. -/
def heading (color : Bool) (m : LogMessage) : String :=
  if m.origin = .continuation then ""
  else
    match heading? m.level with
    | none => ""
    | some (word, style) => (if color then style else .plain).apply word ++ ": "

/-! ## Text -/

/-- A character of a message: one that drives terminals is written as an escape. -/
def escape (c : Char) : List Char :=
  if c = '\x1b' then "\\x1b".toList
  else if c = '\x07' then "\\x07".toList
  else if c = '\x08' then "\\x08".toList
  else if c = '\x0c' then "\\x0c".toList
  else if c = '\x7f' then "\\x7f".toList
  else if 0x80 ≤ c.toNat ∧ c.toNat ≤ 0x9f then
    "\\u\x7b".toList ++ Nat.toDigits 16 c.toNat ++ ['\x7d']
  else [c]

/-- A message as it is written. -/
def write (color : Bool) (m : LogMessage) : String :=
  m.heading color ++ String.ofList (m.text.toList.flatMap escape) ++ "\n"

end LogMessage

end TestSelection
