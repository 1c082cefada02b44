import TestSelection.Config.Settings
import TestSelection.Filter.Compile
import TestSelection.Rule.Json

/-!
# Configuration files

A configuration file holds a specification, in JSON if the name of the file says so, and in TOML
otherwise. Keys that it does not know are listed, and a rule that is not in order is an error.

A path that leads to no file is tried again with the extension of the format after it; if there is a
file, but it cannot be read, this is a fault. Bytes that are no text are replaced, and a byte order
mark in front is dropped.
-/

namespace TestSelection

/-! ## Formats -/

/-- The notation of a configuration file. -/
inductive ConfigFormat where
  | json
  | toml
deriving DecidableEq, Repr

namespace ConfigFormat

/-- The extension of a format. -/
def extension : ConfigFormat → String
  | .json => "json"
  | .toml => "toml"

/-- The format of a file. -/
def ofPath (p : Path) : ConfigFormat :=
  if p.extension?.map String.toLower = some "json" then .json else .toml

/-- The table that a text describes. -/
def read? (format : ConfigFormat) (text : String) : Option (List (String × Value)) :=
  match format with
  | .toml => Toml.ofString? text
  | .json =>
    match (Json.Document.ofString text).read (Json.Tree.toValue Json.depthLimit) with
    | .ok v =>
      match Settings.lastOfEach v with
      | .table entries => some entries
      | _ => none
    | .error _ => none

end ConfigFormat

/-! ## Specifications from settings -/

/-- A part of the settings that is not of the right shape. -/
structure Misfit where
  place : String
  cause : Mismatch

/-- In settings, only integers that do not fit into 63 bits count as numbers of kinds. -/
def Rule.numberedInSettings (n : Int) : Bool := Int64.maxValue.toInt < n

/-- Where in a rule its tag stands, if that is what is wrong with the rule. -/
def Rule.tagPlace (v : Value) : String :=
  let isWrong (tag : Value) : Bool := !(RuleKind.ofValue Rule.numberedInSettings tag).isOk
  match v with
  | .table entries => if (entries.lookup "type").any isWrong then ".type" else ""
  | .array items => if items.head?.any isWrong then "[0]" else ""
  | _ => ""

namespace Specification

/-- Read the rules of a list, counting from a number. -/
def rulesFrom (list : RuleList) : Nat → List Value → Except Misfit (List Rule)
  | _, [] => .ok []
  | index, v :: vs =>
    match Rule.ofValue Rule.numberedInSettings v with
    | .error cause => .error ⟨placeText list index ++ Rule.tagPlace v, cause⟩
    | .ok r => do return r :: (← rulesFrom list (index + 1) vs)

/-- Read a list of rules. -/
def listOfValue (list : RuleList) (v : Value) : Except Misfit (List Rule) :=
  match v.asSequence with
  | .ok items => rulesFrom list 0 items
  | .error cause => .error ⟨list.name, cause⟩

/-- How settings are read: an entry that belongs to no list is passed over, and its key is noted. -/
def reading :
    ReadingIn (StateT (List String) (Except Misfit)) Misfit Value (fun _ : RuleList => List Rule) :=
  { fault := fun cause => ⟨"", cause⟩
    field := listOfValue
    other := fun key _ => modify (List.insert key)
    surplus := fun total expected => ⟨"", surplusItems total expected⟩ }

/-- Read a specification from settings, and the keys that are passed over, in order. -/
def readSettings (settings : List (String × Value)) :
    Except Misfit (Specification × List String) := do
  let (fields, keys) ← (record.ofEntries reading (settings.map fun e => (.ok e.1, e.2))).run []
  let spec := ⟨fields.optional .allowlist [], fields.optional .blocklist []⟩
  return (spec, keys.mergeSort fun a b => a ≤ b)

end Specification

/-! ## Loading -/

/-- A specification with the file that holds it. -/
structure Config where
  file : Path
  spec : Specification

/-- Why a configuration file cannot be used. -/
inductive ConfigFault where
  | notFound
  /-- There is a file, but it cannot be read, or its text is not in the format. -/
  | notReadable
  | misfit (m : Misfit)
  | invalid (e : InvalidEntry)

/-- A configuration file that cannot be used. -/
structure ConfigError where
  file : Path
  cause : ConfigFault

/-- What came of loading a configuration file, and the keys that were passed over. -/
structure Loaded where
  ignored : List String
  result : Except ConfigError Config

/-- The wording of a failure. -/
def ConfigError.message (e : ConfigError) : String :=
  "failed to parse filter config at `" ++ e.file.text ++ "`"

/-- The wording for a file that is not there. -/
def missingConfigMessage (file : Path) : String :=
  "configuration file \"" ++ file.text ++ "\" not found"

/-- The wording of a misfit. -/
def Misfit.message (m : Misfit) : String :=
  match m.cause with
  | .missingField name => "missing configuration field \"" ++ m.place ++ name ++ "\""
  | cause => cause.message .settings

namespace Config

/-- The path with the extension of its format after it. -/
def otherPath? (p : Path) : Option Path := p.withExtension? (ConfigFormat.ofPath p).extension

/-- What it means for a configuration that a file cannot be read. -/
def faultOf (cause : ReadError) : ConfigFault :=
  if cause.isFile then .notReadable else .notFound

/-- The bytes of a file. If there is no file at the path, the one with the extension of its format is
taken. -/
def bytes (access : FileAccess) (p : Path) : Except ConfigFault (List UInt8) :=
  match access.read p with
  | .ok bytes => .ok bytes
  | .error cause =>
    match cause.isFile, otherPath? p with
    | false, some other => (access.read other).mapError faultOf
    | _, _ => .error (faultOf cause)

/-- The text of bytes, without a byte order mark. -/
def textOf (bytes : List UInt8) : String :=
  let text := Utf8.decodeLossy bytes
  if text.startsWith "\ufeff" then (text.drop 1).toString else text

/-- Read the settings of a file. -/
def settings (access : FileAccess) (p : Path) : Except ConfigFault (List (String × Value)) := do
  match (ConfigFormat.ofPath p).read? (textOf (← bytes access p)) with
  | none => .error .notReadable
  | some entries => return Settings.ofEntries entries

/-- Load a configuration file. -/
def load (access : FileAccess) (p : Path) : Loaded :=
  match settings access p with
  | .error cause => ⟨[], .error ⟨p, cause⟩⟩
  | .ok settings =>
    match Specification.readSettings settings with
    | .error m => ⟨[], .error ⟨p, .misfit m⟩⟩
    | .ok (spec, ignored) =>
      match spec.validate with
      | .error e => ⟨ignored, .error ⟨p, .invalid e⟩⟩
      | .ok () => ⟨ignored, .ok ⟨p, spec⟩⟩

/-- The directory of a configuration file, if its path names one. -/
def baseDir (c : Config) : Option Path :=
  match c.file.parent? with
  | some dir => if dir.text = "" then none else some dir
  | none => none

/-- Where the rules of a configuration find their files. -/
def context (c : Config) (access : FileAccess) : Context := ⟨access, c.baseDir⟩

end Config

end TestSelection
