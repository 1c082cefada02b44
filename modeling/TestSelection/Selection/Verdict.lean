import TestSelection.Json.Reading
import TestSelection.Shape.OfValue

/-!
# Verdicts

A test is either selected or skipped, and it is skipped for one of two reasons.
-/

namespace TestSelection

open Json (Fault Tree)

/-- Why a test is skipped. -/
inductive SkipReason where
  /-- There are rules for what may run, and none of them matches the test. -/
  | notAllowlisted
  /-- A rule for what must not run matches the test. -/
  | blocklisted
deriving DecidableEq, Repr, Inhabited

/-- Whether a test is selected. -/
inductive Verdict where
  | selected
  | skipped (reason : SkipReason)
deriving DecidableEq, Repr, Inhabited

namespace SkipReason

/-- A reason in words. -/
def text : SkipReason → String
  | .notAllowlisted => "does not match the allowlist"
  | .blocklisted => "matches the blocklist"

/-- The name of a reason in documents. -/
def name : SkipReason → String
  | .notAllowlisted => "not-allowlisted"
  | .blocklisted => "blocklisted"

/-- The reason of a name. -/
def ofName (name : String) : Except Mismatch SkipReason :=
  if name = SkipReason.notAllowlisted.name then .ok .notAllowlisted
  else if name = SkipReason.blocklisted.name then .ok .blocklisted
  else .error (.unknownVariant name [SkipReason.notAllowlisted.name, SkipReason.blocklisted.name])

end SkipReason

namespace Verdict

/-- Whether the test is selected. -/
def isSelected : Verdict → Bool
  | .selected => true
  | .skipped _ => false

/-- Why the test is skipped, if it is. -/
def reason? : Verdict → Option SkipReason
  | .selected => none
  | .skipped reason => some reason

/-! ## JSON -/

/-- The tag of a verdict in documents. -/
inductive Status where
  | matches
  | mismatch
deriving DecidableEq, Repr

/-- The status of a name. -/
def Status.ofName (name : String) : Except Mismatch Status :=
  if name = "matches" then .ok .matches
  else if name = "mismatch" then .ok .mismatch
  else .error (.unknownVariant name ["matches", "mismatch"])

/-- The only field of a test that is skipped. -/
inductive Field where
  | reason
deriving DecidableEq, Repr

def record : Record Field := ⟨"struct variant FilterMatch::Mismatch", [.reason], fun _ => "reason"⟩

/-- The record in which a verdict is written, in words. -/
def title : String := "internally tagged enum FilterMatch"

/-- Read the status from a value. -/
def statusOf : Value → Except Mismatch Status
  | .string s => Status.ofName s
  | v => .error (.wrongType v.found "variant identifier")

/-- Read the reason. -/
def readField (_ : Field) (v : Value) : Except Mismatch SkipReason :=
  v.asVariant SkipReason.ofName

/-- Read what belongs to the status. -/
def ofTagged (t : Tagged Status Value) : Except Mismatch Verdict :=
  match t.tag, t.content with
  | .matches, .inl _ => .ok .selected
  | .matches, .inr [] => .ok .selected
  | .matches, .inr items => .error (surplusItems items.length 0)
  | .mismatch, _ => do
    let fields ← t.fields record (buffered (fun _ => .ok ()) readField)
    return .skipped (← fields.required .reason)

/-- Read a verdict from a value. -/
def ofValue : Value → Except Mismatch Verdict
  | .table entries => do ofTagged (← Tagged.splitEntries "status" statusOf entries)
  | .array items => do ofTagged (← Tagged.splitItems "status" statusOf items)
  | v => .error (.wrongType v.found title)

/-- Read a verdict from a text. -/
def ofString (text : String) : Except Fault Verdict :=
  (Json.Document.ofString text).read fun t => do
    let v ← t.toTagged Json.depthLimit title "status" Status.ofName
    Json.ofShape (ofValue v)

/-- A verdict as a value. -/
def toValue : Verdict → Value
  | .selected => .table [("status", .string "matches")]
  | .skipped reason => .table [("status", .string "mismatch"), ("reason", .string reason.name)]

end Verdict

end TestSelection
