/-!
# The environment of a run

A run sees variables, whose values are texts unless they hold bytes that are no text, and it knows
whether its output goes to a terminal.

The environment decides whether output is coloured when the user has not said so. Colours can be
forced, and then nothing else counts. Otherwise the output has to go to a terminal that shows
colours, and nobody may have refused them.
-/

namespace TestSelection

/-- What a variable holds. -/
inductive Variable where
  | unset
  | notText
  | text (s : String)
deriving DecidableEq, Repr, Inhabited

/-- The variables, where `none` stands for bytes that are no text. -/
structure Environment where
  entries : List (String × Option String)
  terminal : Bool

namespace Environment

/-- An environment without variables, whose output goes to no terminal. -/
def empty : Environment := ⟨[], false⟩

/-- What the variable of a name holds. -/
def lookup (env : Environment) (name : String) : Variable :=
  match env.entries.lookup name with
  | some (some s) => .text s
  | some none => .notText
  | none => .unset

/-- The text of a variable, if it holds one. -/
def text? (env : Environment) (name : String) : Option String :=
  match env.lookup name with
  | .text s => some s
  | _ => none

/-- Whether a variable holds a text that is not zero. -/
def isOn (env : Environment) (name : String) : Bool := (env.text? name).any (· ≠ "0")

/-! ## Colours -/

/-- The number of a text: digits, perhaps after a plus sign, that fit into 64 bits. -/
def level? (s : String) : Option Nat :=
  let digits := match s.toList with
    | '+' :: rest => rest
    | cs => cs
  if digits.isEmpty || !digits.all Char.isDigit then none
  else
    let n := digits.foldl (fun n c => 10 * n + (c.toNat - '0'.toNat)) 0
    if n < UInt64.size then some n else none

/-- Whether colours are forced. -/
def forcesColor (env : Environment) : Bool :=
  match env.text? "FORCE_COLOR" with
  | some s => if s = "false" then false else (level? s).getD 1 ≠ 0
  | none => env.isOn "CLICOLOR_FORCE"

/-- Whether colours are refused. -/
def refusesColor (env : Environment) : Bool :=
  env.isOn "NO_COLOR" || env.text? "TERM" = some "dumb"

/-- Whether a kind of terminal shows colours. -/
def showsColor (terminal : String) : Bool :=
  ["direct", "truecolor", "256", "256color"].any (terminal.endsWith ·) ||
    ["screen", "xterm", "vt100", "vt220", "rxvt"].any (terminal.startsWith ·) ||
    ["color", "ansi", "cygwin", "linux"].any (terminal.contains ·)

/-- Whether something says that colours are shown. -/
def knowsColor (env : Environment) : Bool :=
  (env.text? "COLORTERM").isSome || (env.text? "TERM").any showsColor || env.isOn "CLICOLOR" ||
    ["iTerm.app", "Apple_Terminal"].any (env.text? "TERM_PROGRAM" = some ·) ||
    ["true", "1", "woodpecker"].any (env.text? "CI" = some ·)

/-- Whether output is coloured if nobody says so. -/
def wantsColor (env : Environment) : Bool :=
  env.forcesColor ||
    (!env.refusesColor && (env.terminal || env.isOn "IGNORE_IS_TERMINAL") && env.knowsColor)

end Environment

end TestSelection
