import TestSelection.CommandLine.Option

/-!
# Reading the command line

Arguments are read from the front. An option takes its value from what is attached to it, or else
from the next argument. The value is looked at when the next option is met or the arguments end, so
of two faults the one that was met first is reported.

What stands after the command is read before the options in front of it are closed. An option that
was not given is then taken from the environment. An option that can stand in both places may be
given in both, and then the one after the command counts.
-/

namespace TestSelection.CommandLine

/-- Why arguments cannot be followed. Requests for help and for the version end a run too. -/
inductive ArgumentError where
  | help
  | helpForNothing
  | version
  | missingCommand
  | missingOption
  | unknownCommand
  | unknownArgument
  | invalidValue
  | notText
  | surplusValue
  | repeated
deriving DecidableEq, Repr

/-- The exit code after arguments that cannot be followed. -/
def ArgumentError.exitCode : ArgumentError → Nat
  | .help | .version => 0
  | _ => 2

/-! ## Options that were read -/

/-- The options of a part, as far as they were read. -/
structure Given where
  values : List (Opt × String)
  /-- Options that were taken from the environment. -/
  inherited : List (Opt × String)
  /-- The last option, while its value may still follow or has not been looked at. -/
  pending : Option (Opt × Option String)

namespace Given

def none : Given := ⟨[], [], .none⟩

/-- The value of an option. -/
def value? (g : Given) (o : Opt) : Option String := g.values.lookup o <|> g.inherited.lookup o

/-- Add an option with its value. -/
def add (g : Given) (o : Opt) (value : String) : Except ArgumentError Given :=
  if (g.value? o).isSome then .error .repeated
  else if o.allows value then .ok { g with values := (o, value) :: g.values }
  else .error .invalidValue

/-- Look at the last option. -/
def close (g : Given) : Except ArgumentError Given :=
  match g.pending with
  | .none => .ok g
  | some (_, .none) => .error .invalidValue
  | some (o, some value) => { g with pending := .none }.add o value

/-- Whether the last option still waits for its value. -/
def waits (g : Given) : Bool :=
  match g.pending with
  | some (_, .none) => true
  | _ => false

/-- Give the last option its value. -/
def supply (g : Given) (value : String) : Given :=
  { g with pending := g.pending.map fun p => (p.1, some value) }

/-- An option without a value. -/
def flag (g : Given) (o : Opt) : Except ArgumentError Given := do
  let g ← g.close
  match o with
  | .help => .error .help
  | .version => .error .version
  | o => g.add o "true"

/-- An option with a value, which may be attached to it. -/
def option (g : Given) (o : Opt) (attached : Option String) : Except ArgumentError Given := do
  let g ← g.close
  match attached with
  | some value => g.add o value
  | .none => return { g with pending := some (o, .none) }

/-- A long option, given the text after its dashes. -/
def long (level : Level) (g : Given) (text : List Char) : Except ArgumentError Given :=
  let name := String.ofList (text.takeWhile (· ≠ '='))
  let attached :=
    match text.dropWhile (· ≠ '=') with
    | _ :: value => some (String.ofList value)
    | [] => .none
  match level.options.find? fun o => o.long = name with
  | .none => .error .unknownArgument
  | some o =>
    if o.takesValue then g.option o attached
    else if attached.isSome then .error .surplusValue
    else g.flag o

/-- Short options, given the text after their dash. -/
def short (level : Level) (g : Given) : List Char → Except ArgumentError Given
  | [] => .ok g
  | c :: rest =>
    match level.options.find? fun o => o.short? = some c with
    | .none => .error .unknownArgument
    | some o =>
      if o.takesValue then
        match rest with
        | [] => g.option o .none
        | '=' :: value => g.option o (some (String.ofList value))
        | value => g.option o (some (String.ofList value))
      else do short level (← g.flag o) rest

/-- Take an option from the environment, unless it was given. -/
def inherit (env : Environment) (g : Given) (o : Opt) : Except ArgumentError Given :=
  if (g.value? o).isSome then .ok g
  else
    match o.envName?.map env.lookup with
    | .none | some .unset => .ok g
    | some .notText => .error (if o.choices?.isSome then .invalidValue else .notText)
    | some (.text value) =>
      if o.allows value then .ok { g with inherited := (o, value) :: g.inherited }
      else .error .invalidValue

/-- Finish the options of a part. -/
def finish (env : Environment) (level : Level) (g : Given) : Except ArgumentError Given := do
  level.options.foldlM (inherit env) (← g.close)

end Given

/-! ## Arguments -/

/-- Whether a word starts a command or asks for help on one. -/
def isCommandWord (word : String) : Bool := word = helpWord || (Level.ofWord? word).isSome

/-- The fault of an argument that belongs to no option. -/
def stray (level : Level) (afterDashes : Bool) (arg : String) : ArgumentError :=
  if level ≠ .top then .unknownArgument
  else if afterDashes && isCommandWord arg then .unknownArgument
  else .unknownCommand

/-- Read the arguments of a part. Those of the top part end with a word that starts a command, which
is given back with what follows it. After two dashes nothing is an option. -/
def scan (level : Level) : Bool → Given → List String →
    Except ArgumentError (Given × Option (String × List String))
  | _, g, [] => .ok (g, .none)
  | true, _, arg :: _ => .error (stray level true arg)
  | false, g, arg :: rest =>
    if level = .top ∧ !g.waits ∧ isCommandWord arg then .ok (g, some (arg, rest))
    else
      match arg.toList with
      | ['-', '-'] => scan level true g rest
      | '-' :: '-' :: text => do scan level false (← g.long level text) rest
      | '-' :: c :: text => do scan level false (← g.short level (c :: text)) rest
      | _ =>
        if g.waits then scan level false (g.supply arg) rest
        else .error (stray level false arg)

/-- What a request for help on commands comes to: only one word may follow. -/
def helpRequest : List String → ArgumentError
  | [] => .help
  | [word] => if isCommandWord word then .help else .unknownCommand
  | _ => .unknownCommand

/-! ## Commands -/

/-- The value of an option that has to be given. -/
def required (g : Given) (o : Opt) : Except ArgumentError String :=
  match g.value? o with
  | some value => .ok value
  | .none => .error .missingOption

/-- The command of its options. -/
def commandOf (level : Level) (g : Given) : Except ArgumentError Command := do
  let config ← required g .config
  match level with
  | .select =>
    let tests ← required g .tests
    let format :=
      match g.value? .format with
      | some "json" => OutputFormat.json
      | some "json-pretty" => .jsonPretty
      | _ => .human
    return .select ⟨⟨config⟩, ⟨tests⟩, format, (g.value? .failIfEmpty).isSome⟩
  | .showConfig => return .showConfig ⟨config⟩
  | _ => return .validate ⟨config⟩

/-- The value of an option that can stand before the command and after it. -/
def sharedValue? (top inner : Given) (o : Opt) : Option String :=
  inner.values.lookup o <|> top.values.lookup o <|> inner.inherited.lookup o <|>
    top.inherited.lookup o

/-- What the arguments of an environment ask for. -/
def parse (env : Environment) (args : List String) : Except ArgumentError Invocation := do
  match ← scan .top false .none args with
  | (top, .none) =>
    let top ← top.finish env .top
    if top.values.isEmpty ∧ top.inherited.isEmpty then .error .helpForNothing
    else .error .missingCommand
  | (top, some (word, rest)) =>
    match Level.ofWord? word with
    | .none => .error (helpRequest rest)
    | some level =>
      let (inner, _) ← scan level false .none rest
      let inner ← inner.finish env level
      let command ← commandOf level inner
      let top ← top.finish env .top
      let color :=
        match sharedValue? top inner .color with
        | some "always" => ColorChoice.always
        | some "never" => .never
        | _ => .auto
      return ⟨sharedValue? top inner .verbose = some "true", color, command⟩

end TestSelection.CommandLine
