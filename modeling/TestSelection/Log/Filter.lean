import TestSelection.Environment
import TestSelection.Log
import TestSelection.Text.Blank

/-!
# Which messages are wanted

A log filter is a list of directives, separated by commas. A directive is a level, the beginning of
the name of a part, or both with an equals sign between them. It may also ask for fields in
brackets; the only field of a message is its text.

Of the directives that concern a message, the most specific one decides: the one with the longest
name, and of equal names the one with more fields. A message that no directive concerns is not
wanted.
-/

namespace TestSelection

/-! ## Levels -/

/-- The level of a word, in any case, or of a digit. Nothing stands for errors. -/
def LogLevel.ofText? (s : String) : Option LogLevel :=
  match Environment.level? s with
  | some n => [.off, .error, .warning, .info, .debug, .trace][n]?
  | none =>
    match s.toLower with
    | "" => some .error
    | "off" => some .off
    | "error" => some .error
    | "warn" => some .warning
    | "info" => some .info
    | "debug" => some .debug
    | "trace" => some .trace
    | _ => none

/-! ## Directives -/

/-- A directive: which messages it concerns, and which of these are wanted. -/
structure LogDirective where
  name : Option String
  fields : List String
  level : LogLevel
deriving DecidableEq, Repr

/-- What is wrong with a log filter. -/
inductive LogFilterError where
  | level
  | severalLevels
  | severalFieldLists
  | openFieldList
deriving DecidableEq, Repr

/-- The wording of a fault. -/
def LogFilterError.message : LogFilterError → String
  | .level =>
    "error parsing level filter: expected one of \"off\", \"error\", \"warn\", \"info\", " ++
      "\"debug\", \"trace\", or a number 0-5"
  | .severalLevels =>
    "invalid filter directive: too many '=' in filter directive, expected 0 or 1"
  | .severalFieldLists =>
    "invalid filter directive: too many '[\x7b' in filter directive, expected 0 or 1"
  | .openFieldList => "invalid filter directive: expected fields list to end with '\x7d]'"

/-- The pieces of a text between the places where a list of fields opens. -/
def fieldPieces : List Char → List (List Char)
  | [] => [[]]
  | '[' :: '\x7b' :: rest => [] :: fieldPieces rest
  | c :: rest =>
    match fieldPieces rest with
    | [] => [[c]]
    | piece :: pieces => (c :: piece) :: pieces

/-- Drop closing marks of a list of fields from a text that is given backwards. -/
def dropClosing : List Char → List Char
  | ']' :: '\x7d' :: rest => dropClosing rest
  | text => text

/-- The fields of a list without its opening mark. -/
def fieldsOf (text : List Char) : Except LogFilterError (List String) :=
  match text.reverse with
  | ']' :: '\x7d' :: rest =>
    let names := Text.pieces ',' (dropClosing rest).reverse
    .ok ((names.filter (· ≠ [])).map String.ofList)
  | _ => .error .openFieldList

namespace LogDirective

/-- The directive of a name with fields, and a level. -/
def ofParts (target level : List Char) : Except LogFilterError LogDirective := do
  let (name, fields) ←
    match fieldPieces target with
    | [name, fields] => do pure (name, ← fieldsOf fields)
    | [name] => pure (name, [])
    | _ => throw .severalFieldLists
  match LogLevel.ofText? (String.ofList level) with
  | some level => return ⟨some (String.ofList name), fields, level⟩
  | none => throw .level

/-- The directive of a text without an equals sign: a level, or else a name. -/
def ofWord (word : String) : LogDirective :=
  match LogLevel.ofText? word with
  | some level => ⟨none, [], level⟩
  | none => ⟨some word, [], .trace⟩

/-- The directive of a text. -/
def ofText (text : List Char) : Except LogFilterError LogDirective :=
  match Text.pieces '=' text with
  | [target, level] => ofParts target level
  | [word] => .ok (ofWord (String.ofList word))
  | _ => .error .severalLevels

/-- Whether a directive concerns a message. -/
def concerns (d : LogDirective) (m : LogMessage) : Bool :=
  d.name.all (m.origin.name.startsWith ·) && d.fields.all (· == "message")

/-- How specific a directive is: the size of its name, and the number of its fields. -/
def rank (d : LogDirective) : Nat × Nat :=
  ((d.name.map fun s => s.utf8ByteSize + 1).getD 0, d.fields.length)

/-- Whether a directive counts more than another one. -/
def outranks (d e : LogDirective) : Bool :=
  e.rank.1 < d.rank.1 || (e.rank.1 == d.rank.1 && e.rank.2 < d.rank.2)

end LogDirective

/-! ## Filters -/

/-- A log filter. -/
structure LogFilter where
  directives : List LogDirective

namespace LogFilter

/-- Everything up to plain information. -/
def standard : LogFilter := ⟨[⟨none, [], .info⟩]⟩

/-- The filter of a text. -/
def ofString (text : String) : Except LogFilterError LogFilter := do
  return ⟨← (Text.pieces ',' text.toList).mapM LogDirective.ofText⟩

/-- The directive that decides: of equally specific ones, the last. -/
def decisive? (filter : LogFilter) (m : LogMessage) : Option LogDirective :=
  (filter.directives.filter (·.concerns m)).foldl
    (fun best d => if best.any (·.outranks d) then best else some d) none

/-- Whether a message is wanted. -/
def wants (filter : LogFilter) (m : LogMessage) : Bool :=
  match filter.decisive? m with
  | some d => m.level.rank ≤ d.level.rank
  | none => false

/-- The variable that holds the filter. -/
def variableName : String := "TESTSIEVE_LOG"

/-- A warning about a filter that is passed over. -/
def refusal (reason : String) : LogMessage :=
  ⟨.warning, .setup, "ignoring " ++ variableName ++ ": " ++ reason⟩

/-- The filter of an environment, and a warning if the filter that stands there is no use. -/
def ofEnvironment (env : Environment) : LogFilter × List LogMessage :=
  match env.lookup variableName with
  | .unset => (standard, [])
  | .notText => (standard, [refusal "value is not valid UTF-8"])
  | .text s =>
    if s = "" then (standard, [])
    else
      match ofString s with
      | .ok filter => (filter, [])
      | .error e => (standard, [refusal ("invalid filter `" ++ s ++ "`: " ++ e.message)])

end LogFilter

end TestSelection
