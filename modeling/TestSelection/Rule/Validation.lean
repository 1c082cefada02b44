import TestSelection.Rule

/-!
# Checking rules

A simple rule needs exactly one source, and a bucket number has to be below the number of buckets.
Rules are checked in the order in which they are written, from the outside to the inside, and the
first that is not in order is reported. Files are not looked at.
-/

namespace TestSelection

/-- What is wrong with a rule. -/
inductive InvalidRule where
  | noSource (kind : RuleKind)
  | severalSources (kind : RuleKind) (found : List SourceKind)
  | negativeIndex (index : Int32)
  | negativeCount (count : Int32)
  | indexOutOfRange (index count : Int32)
deriving DecidableEq, Repr

namespace InvalidRule

/-- The wording of a fault. -/
def message : InvalidRule → String
  | .noSource kind =>
    "at least one of [regex, values, file] must be specified for " ++ kind.name ++ " filter"
  | .severalSources kind found =>
    "only one of [regex, values, file] can be specified for " ++ kind.name ++ " filter (found: " ++
      ", ".intercalate (found.map SourceKind.name) ++ ")"
  | .negativeIndex index => "fragment index [" ++ toString index.toInt ++ "] must be >= 0"
  | .negativeCount count => "fragment count [" ++ toString count.toInt ++ "] must be >= 0"
  | .indexOutOfRange index count =>
    "fragment index [" ++ toString index.toInt ++ "] must be less than count [" ++
      toString count.toInt ++ "]"

/-- What to do about a fault. -/
def help? : InvalidRule → Option String
  | .noSource _ => some "specify exactly one of `regex`, `values` or `file`"
  | .severalSources _ _ => some "split this into several filters combined with a composition"
  | .negativeIndex _ => none
  | .negativeCount _ => none
  | .indexOutOfRange _ _ => some "fragment indexes count up from 0"

end InvalidRule

/-- The one source of a simple rule that is in order. -/
inductive SoleSource where
  | regex (r : Regex)
  | values (values : List String)
  | file (file : Path)

namespace Source

/-- The one source, if there is exactly one. -/
def sole (s : Source) (kind : RuleKind) : Except InvalidRule SoleSource :=
  match s with
  | ⟨some r, .none, .none⟩ => .ok (.regex r)
  | ⟨.none, some values, .none⟩ => .ok (.values values)
  | ⟨.none, .none, some file⟩ => .ok (.file file)
  | ⟨.none, .none, .none⟩ => .error (.noSource kind)
  | s => .error (.severalSources kind s.present)

/-- Check that there is exactly one source. -/
def validate (s : Source) (kind : RuleKind) : Except InvalidRule Unit := do
  let _ ← s.sole kind

end Source

/-- Check that a bucket number is one of the buckets. -/
def validateFragment (index count : Int32) : Except InvalidRule Unit :=
  if index < 0 then .error (.negativeIndex index)
  else if count < 0 then .error (.negativeCount count)
  else if count ≤ index then .error (.indexOutOfRange index count)
  else .ok ()

namespace Rule

mutual

/-- Check a rule and all rules in it. -/
def validate : Rule → Except InvalidRule Unit
  | .simple attr source => source.validate (.simple attr)
  | .annotationData _ _ => .ok ()
  | .fragmentation index count => validateFragment index count
  | .composition _ rules => validateAll rules

/-- Check rules, one after the other. -/
def validateAll : List Rule → Except InvalidRule Unit
  | [] => .ok ()
  | r :: rs => do
    validate r
    validateAll rs

end

end Rule

/-! ## Specifications -/

/-- A rule of a specification that is not in order, and where it stands. -/
structure InvalidEntry where
  list : RuleList
  index : Nat
  cause : InvalidRule
deriving DecidableEq, Repr

/-- The place of a rule in a specification. -/
def placeText (list : RuleList) (index : Nat) : String :=
  list.name ++ "[" ++ toString index ++ "]"

/-- The wording of a fault in a specification. -/
def InvalidEntry.message (e : InvalidEntry) : String := placeText e.list e.index ++ " is invalid"

/-- Check rules of a specification, one after the other. -/
def validateEntries : List (RuleList × Nat × Rule) → Except InvalidEntry Unit
  | [] => .ok ()
  | (list, index, r) :: rest =>
    match r.validate with
    | .ok () => validateEntries rest
    | .error cause => .error ⟨list, index, cause⟩

/-- Check a specification, the allowlist first. -/
def Specification.validate (s : Specification) : Except InvalidEntry Unit :=
  validateEntries s.rules

end TestSelection
