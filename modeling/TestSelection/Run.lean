import TestSelection.CommandLine
import TestSelection.Run.Failure

/-!
# Runs

A run follows an invocation: it loads the configuration, does what the command says, writes the
output to a sink, and gives messages on the way. Everything that can fail before there is any
output is done first, so a run that fails for such a reason writes nothing.
-/

namespace TestSelection

/-! ## Steps with messages -/

/-- A step of a run: its messages, and its result unless it fails. -/
structure Step (α : Type) where
  log : List LogMessage
  result : Except Failure α

namespace Step

/-- A step without messages. -/
def of {α : Type} (result : Except Failure α) : Step α := ⟨[], result⟩

/-- A step that only gives messages. -/
def say (log : List LogMessage) : Step Unit := ⟨log, .ok ()⟩

/-- Go on with the result of a step. -/
def andThen {α β : Type} (x : Step α) (next : α → Step β) : Step β :=
  match x.result with
  | .error e => ⟨x.log, .error e⟩
  | .ok a => ⟨x.log ++ (next a).log, (next a).result⟩

instance : Monad Step where
  pure a := ⟨[], .ok a⟩
  bind := andThen

end Step

/-! ## Loading -/

/-- The keys that were passed over, in a message. -/
def ignoredMessage (file : Path) (keys : List String) : LogMessage :=
  let list :=
    match keys with
    | [key] => "key: " ++ key
    | keys => "keys:\n" ++ String.join (keys.map fun key => "\n  - " ++ key)
  ⟨.warning, .configuration,
    "in config file " ++ file.text ++ ", ignoring unknown configuration " ++ list⟩

/-- Load a configuration file. -/
def loadConfig (access : FileAccess) (file : Path) : Step Config := do
  let loaded := Config.load access file
  Step.say (if loaded.ignored.isEmpty then [] else [ignoredMessage file loaded.ignored])
  let c ← Step.of (loaded.result.mapError .config)
  Step.say
    [⟨.debug, .configuration,
      "loaded " ++ toString c.spec.allowlist.length ++ " allowlist and " ++
        toString c.spec.blocklist.length ++ " blocklist rules from " ++ file.text⟩]
  return c

/-- The message on a file that was read for a rule. -/
def FileRead.logMessage (f : FileRead) : LogMessage :=
  ⟨.debug, .rules,
    "read " ++ toString f.count ++ " values for " ++ f.kind.name ++ " filter from `" ++
      f.path.text ++ "`"⟩

/-- The messages on the rules of a list, up to the first that cannot be compiled. -/
def compileLog (cx : Context) (list : RuleList) (rules : List Rule) : List LogMessage :=
  let good := (rules.takeWhile fun r => (r.compile cx).isOk).length
  ((rules.take (good + 1)).flatMap (Rule.reads cx)).map FileRead.logMessage ++
    if good = rules.length then
      [⟨.debug, .selector, "compiled " ++ toString good ++ " " ++ list.name ++ " rules"⟩]
    else []

/-- Compile the rules of a configuration. -/
def compileConfig (access : FileAccess) (c : Config) : Step Selector := do
  let cx := c.context access
  let compile (list : RuleList) (rules : List Rule) : Step Filter := do
    Step.say (compileLog cx list rules)
    Step.of ((Selector.compileList cx list rules).mapError .selector)
  let allowlist ← compile .allowlist c.spec.allowlist
  let blocklist ← compile .blocklist c.spec.blocklist
  return Selector.ofFilters c.spec allowlist blocklist

/-- Read the tests. -/
def readTests (access : FileAccess) (file : Path) : Step (List TestCase) := do
  let tests ← Step.of ((TestList.ofFile access file).mapError .testList)
  Step.say
    [⟨.debug, .testList, "read " ++ toString tests.length ++ " tests from " ++ file.text⟩]
  return tests

/-- Select tests. -/
def prepare (access : FileAccess) (options : SelectOptions) : Step Selection := do
  let c ← loadConfig access options.config
  let selector ← compileConfig access c
  let tests ← readTests access options.tests
  let selection := selector.select tests
  Step.say
    [⟨.debug, .selector,
      "selected " ++ toString selection.selectedCount ++ " of " ++ toString selection.total ++
        " tests (" ++ toString selection.skippedCount ++ " skipped)"⟩]
  return selection

/-! ## Output -/

/-- What came of a run. -/
structure Outcome where
  log : List LogMessage
  sink : Sink
  result : Except Failure Unit

/-- Write pieces and hand them over. -/
def Sink.deliver (sink : Sink) (pieces : List String) : Sink × Except Failure Unit :=
  match sink.write pieces with
  | (sink, .error e) => (sink, .error (.output e))
  | (sink, .ok ()) => (sink, sink.flush.mapError .output)

/-- Write that a configuration is in order. -/
def Config.writeValid (c : Config) (sink : Sink) : Sink × Except Failure Unit :=
  sink.deliver
    [c.file.text ++ ": " ++ toString c.spec.allowlist.length ++ " allowlist and " ++
      toString c.spec.blocklist.length ++ " blocklist rules are valid\n"]

/-- The text of a configuration in JSON. -/
def Config.json (c : Config) : String := Json.write .pretty c.spec.toValue

/-- Write a configuration in JSON. -/
def Config.writeJson (c : Config) (sink : Sink) : Sink × Except Failure Unit :=
  match sink.write [c.json] with
  | (sink, .error e) => (sink, .error (.json e))
  | (sink, .ok ()) => sink.deliver ["\n"]

/-- Write a selection. -/
def Selection.deliver (s : Selection) (format : ReportFormat) (color : Bool) (sink : Sink) :
    Sink × Except Failure Unit :=
  match s.write format color sink with
  | (sink, .error e) => (sink, .error (.report e))
  | (sink, .ok ()) => (sink, sink.flush.mapError .output)

/-- Run something on the result of a step, and put the messages together. -/
def Step.finish {α : Type} (x : Step α) (sink : Sink) (last : α → Sink → Outcome) : Outcome :=
  match x.result with
  | .error e => ⟨x.log, sink, .error e⟩
  | .ok a =>
    let outcome := last a sink
    { outcome with log := x.log ++ outcome.log }

/-! ## Commands -/

/-- Whether output is coloured. -/
def ColorChoice.applies (wanted : Bool) : ColorChoice → Bool
  | .auto => wanted
  | .always => true
  | .never => false

/-- The message with the counts. A verbose report ends with them anyway. -/
def Selection.countLog (s : Selection) (format : ReportFormat) (color : Bool) : List LogMessage :=
  if format = .lines true then []
  else [⟨.info, .commands, s.countLine (if color then .colored else .plain)⟩]

/-- Write a selection and judge it. -/
def SelectOptions.conclude (options : SelectOptions) (verbose color : Bool) (s : Selection)
    (sink : Sink) : Outcome :=
  let format := options.format.report verbose
  match s.deliver format color sink with
  | (sink, .error e) => ⟨[], sink, .error e⟩
  | (sink, .ok ()) =>
    let result :=
      if options.failIfEmpty ∧ s.selectedCount = 0 then .error .nothingSelected else .ok ()
    ⟨s.countLog format color, sink, result⟩

/-- Follow an invocation, given whether the environment wants colours. -/
def Invocation.run (access : FileAccess) (wantsColor : Bool) (sink : Sink) (inv : Invocation) :
    Outcome :=
  let color := inv.color.applies wantsColor
  match inv.command with
  | .validate file =>
    (loadConfig access file).finish sink fun c sink =>
      let (sink, result) := c.writeValid sink
      ⟨[], sink, result⟩
  | .showConfig file =>
    (loadConfig access file).finish sink fun c sink =>
      let (sink, result) := c.writeJson sink
      ⟨[], sink, result⟩
  | .select options =>
    (prepare access options).finish sink (options.conclude inv.verbose color)

/-- The exit code of a run. -/
def Outcome.exitCode (o : Outcome) : Nat :=
  match o.result with
  | .ok () => 0
  | .error e => e.exitCode

end TestSelection
