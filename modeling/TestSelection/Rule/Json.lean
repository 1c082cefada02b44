import TestSelection.Json.Printer
import TestSelection.Json.Reading
import TestSelection.Rule
import TestSelection.Shape.OfValue

/-!
# Rules in documents

A rule is a table with its kind under `type` and the parts of that kind beside it, and nothing
else. The tag may stand anywhere in the table. An array with the tag in front and the parts in
order is a rule too.

A rule that is read from a text is first read as a whole, except that its tag is looked at as soon
as it is met. Inside such a rule a kind may be given by its number; which integers count as numbers
of kinds depends on the notation, so it is an argument here.
-/

namespace TestSelection

open Json (Fault Manner Tree)

/-! ## Names -/

/-- The kind of a tag. -/
def RuleKind.ofName (name : String) : Except Mismatch RuleKind :=
  match RuleKind.all.find? (fun kind => kind.name == name) with
  | some kind => .ok kind
  | none => .error (.unknownVariant name (RuleKind.all.map RuleKind.name))

/-- The kind of a number. -/
def RuleKind.ofNumber (n : Int) : Except Mismatch RuleKind :=
  match RuleKind.all[n.toNat]? with
  | some kind => .ok kind
  | none =>
    .error (.wrongValue (.int n) ("variant index 0 <= i < " ++ toString RuleKind.all.length))

/-- The kind that a value stands for, given the integers that count as numbers. -/
def RuleKind.ofValue (numbered : Int → Bool) : Value → Except Mismatch RuleKind
  | .string s => RuleKind.ofName s
  | .int n =>
    if numbered n then RuleKind.ofNumber n
    else .error (.wrongType (.int n) "variant identifier")
  | v => .error (.wrongType v.found "variant identifier")

/-- The operator of a name, which may be in capital letters. -/
def Operator.ofName (name : String) : Except Mismatch Operator :=
  if name = "UNION" ∨ name = "union" then .ok .union
  else if name = "INTERSECTION" ∨ name = "intersection" then .ok .intersection
  else if name = "SUBTRACT" ∨ name = "subtract" then .ok .subtract
  else
    .error <| .unknownVariant name
      ["UNION", "union", "INTERSECTION", "intersection", "SUBTRACT", "subtract"]

/-- Read a regular expression from a value. -/
def Regex.ofValue (v : Value) : Except Mismatch Regex := do
  (Regex.ofString (← v.asString)).mapError .regex

/-- Read a path from a value. -/
def Path.ofValue : Value → Except Mismatch Path
  | .string s => .ok ⟨s⟩
  | v => .error (.wrongType v.found "a UTF-8 path string")

/-! ## Parts of rules -/

/-- A value, and its items as far as they can be read as rules. -/
abbrev RulePart := Value × List (Except Mismatch Rule)

/-- Read the fields of a part of a rule, and refuse any other entry. -/
def strict {F : Type} {T : F → Type} (r : Record F)
    (field : (f : F) → RulePart → Except Mismatch (T f)) : Reading Mismatch RulePart T :=
  buffered (fun key => .error (.unknownField key r.names)) field

namespace Source

/-- What a source holds. -/
abbrev Holds : SourceKind → Type
  | .regex => Option Regex
  | .values => Option (List String)
  | .file => Option Path

def record : Record SourceKind :=
  ⟨"struct MatchSource", [.regex, .values, .file], SourceKind.name⟩

/-- Read a source. -/
def readField : (f : SourceKind) → RulePart → Except Mismatch (Holds f)
  | .regex => fun p => p.1.asOption Regex.ofValue
  | .values => fun p => p.1.asOption Value.asStrings
  | .file => fun p => p.1.asOption Path.ofValue

/-- Read the sources of a simple rule. -/
def ofTagged (t : Tagged RuleKind RulePart) : Except Mismatch Source := do
  let fields ← t.fields record (strict record readField)
  return ⟨fields.optional .regex .none, fields.optional .values .none,
    fields.optional .file .none⟩

/-- The entries of the sources that are there. -/
def entries (s : Source) : List (String × Value) :=
  (s.regex.map fun r => ("regex", Value.string r.source)).toList ++
    (s.values.map fun vs => ("values", Value.array (vs.map Value.string))).toList ++
    (s.file.map fun p => ("file", Value.string p.text)).toList

end Source

namespace Rule

/-- The fields of a rule on annotations. -/
inductive AnnotationField where
  | name
  | value
deriving DecidableEq, Repr

def annotationRecord : Record AnnotationField :=
  { title := "struct AnnotationDataRule"
    fields := [.name, .value]
    name := fun
      | .name => "name-regex"
      | .value => "value-regex" }

/-- The fields of a rule on buckets. -/
inductive FragmentField where
  | index
  | count
deriving DecidableEq, Repr

def fragmentRecord : Record FragmentField :=
  { title := "struct FragmentationRule"
    fields := [.index, .count]
    name := fun
      | .index => "index"
      | .count => "count" }

/-- The fields of a composition. -/
inductive CompositionField where
  | rules
  | operator
deriving DecidableEq, Repr

/-- What a field of a composition holds. -/
abbrev CompositionField.Holds : CompositionField → Type
  | .rules => List Rule
  | .operator => Operator

def compositionRecord : Record CompositionField :=
  { title := "struct CompositionRule"
    fields := [.rules, .operator]
    name := fun
      | .rules => "filters"
      | .operator => "op" }

/-- The rules of an array, if all of its items are rules. -/
def ofPart : RulePart → Except Mismatch (List Rule)
  | (.array _, rules) => rules.mapM id
  | (v, _) => .error (.wrongType v.found "a sequence")

/-- Read a field of a composition. -/
def readCompositionField :
    (f : CompositionField) → RulePart → Except Mismatch f.Holds
  | .rules => ofPart
  | .operator => fun p => p.1.asVariant Operator.ofName

/-! ## Reading -/

/-- Read what belongs to a tag. -/
def ofTagged (t : Tagged RuleKind RulePart) : Except Mismatch Rule :=
  match t.tag with
  | .simple attr => do return .simple attr (← Source.ofTagged t)
  | .annotationData => do
    let read (_ : AnnotationField) (p : RulePart) := Regex.ofValue p.1
    let fields ← t.fields annotationRecord (strict annotationRecord read)
    let name ← fields.required .name
    let value ← fields.required .value
    return .annotationData name value
  | .fragmentation => do
    let read (_ : FragmentField) (p : RulePart) := p.1.asInt32
    let fields ← t.fields fragmentRecord (strict fragmentRecord read)
    let index ← fields.required .index
    let count ← fields.required .count
    return .fragmentation index count
  | .composition => do
    let fields ← t.fields compositionRecord (strict compositionRecord readCompositionField)
    let rules ← fields.required .rules
    let operator ← fields.required .operator
    return .composition operator rules

/-- What a rule is called in messages. -/
def title : String := "internally tagged enum FilterRule"

mutual

/-- Read a rule from a value. -/
def ofValue (numbered : Int → Bool) : Value → Except Mismatch Rule
  | .table entries => do
    let tag (p : RulePart) := RuleKind.ofValue numbered p.1
    ofTagged (← Tagged.splitEntries "type" tag (entryParts numbered entries))
  | .array items => do
    let tag (p : RulePart) := RuleKind.ofValue numbered p.1
    ofTagged (← Tagged.splitItems "type" tag (itemParts numbered items))
  | v => .error (.wrongType v.found title)

/-- A value with its items, read as rules. -/
def part (numbered : Int → Bool) : Value → RulePart
  | .array items => (.array items, ofValues numbered items)
  | v => (v, [])

/-- Read each value as a rule. -/
def ofValues (numbered : Int → Bool) : List Value → List (Except Mismatch Rule)
  | [] => []
  | v :: vs => ofValue numbered v :: ofValues numbered vs

/-- The parts in the entries of a table. -/
def entryParts (numbered : Int → Bool) : List (String × Value) → List (String × RulePart)
  | [] => []
  | (k, v) :: es => (k, part numbered v) :: entryParts numbered es

/-- The parts in the items of an array. -/
def itemParts (numbered : Int → Bool) : List Value → List RulePart
  | [] => []
  | v :: vs => part numbered v :: itemParts numbered vs

end

/-- In a JSON text, the integers from zero on are numbers of kinds. -/
def numberedInJson (n : Int) : Bool := 0 ≤ n

/-- Read a rule from a tree, given how many arrays and tables may be entered. -/
def ofTree (room : Nat) (t : Tree) : Except Fault Rule := do
  let v ← t.toTagged room title "type" RuleKind.ofName
  Json.ofShape (ofValue numberedInJson v)

/-- Read a rule from a text. -/
def ofString (text : String) : Except Fault Rule :=
  (Json.Document.ofString text).read (ofTree Json.depthLimit)

/-! ## Writing -/

mutual

/-- A rule as a value, with the tag first. -/
def toValue : Rule → Value
  | .simple attr s => .table (("type", .string attr.name) :: s.entries)
  | .annotationData name value =>
    .table
      [("type", .string RuleKind.annotationData.name), ("name-regex", .string name.source),
       ("value-regex", .string value.source)]
  | .fragmentation index count =>
    .table
      [("type", .string RuleKind.fragmentation.name), ("index", .int index.toInt),
       ("count", .int count.toInt)]
  | .composition operator rules =>
    .table
      [("type", .string RuleKind.composition.name), ("filters", .array (toValues rules)),
       ("op", .string operator.name)]

/-- Rules as values. -/
def toValues : List Rule → List Value
  | [] => []
  | r :: rs => toValue r :: toValues rs

end

end Rule

/-! ## Specifications -/

namespace Specification

def record : Record RuleList :=
  ⟨"struct FilterSpecification", [.allowlist, .blocklist], RuleList.name⟩

/-- The number of arrays and tables around a rule of a specification. -/
def depth : Nat := 2

/-- Read a list of rules. -/
def readField (_ : RuleList) (t : Tree) : Except Fault (List Rule) := do
  Tree.each (Rule.ofTree (Json.depthLimit - depth)) (← t.asSequence)

/-- Read a specification. -/
def ofTree (t : Tree) : Except Fault Specification := do
  let fields ← t.record record (Manner.streamed.reading readField)
  return ⟨fields.optional .allowlist [], fields.optional .blocklist []⟩

/-- Read a specification from a text. -/
def ofString (text : String) : Except Fault Specification :=
  (Json.Document.ofString text).read ofTree

/-- A specification as a value. -/
def toValue (s : Specification) : Value :=
  .table
    [("allowlist", .array (Rule.toValues s.allowlist)),
     ("blocklist", .array (Rule.toValues s.blocklist))]

end Specification

end TestSelection
