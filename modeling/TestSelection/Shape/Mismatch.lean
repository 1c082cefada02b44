import TestSelection.Decimal.Shortest
import TestSelection.Regex.Error
import TestSelection.Text.Quoted
import TestSelection.Value

/-!
# Data of the wrong shape

A document can be well formed and still not be what is asked for. A `Mismatch` says in which way.
Its wording differs between places in two points, the word for null and the layout of floats,
which a `Wording` fixes.
-/

namespace TestSelection

/-- What stands in a document in place of what is expected there. -/
inductive Found where
  | null
  | bool (b : Bool)
  | int (n : Int)
  | float (x : Float)
  | string (s : String)
  | sequence
  | map
deriving Inhabited

/-- What a value is, as far as a message tells. -/
def Value.found : Value → Found
  | .null => .null
  | .bool b => .bool b
  | .int n => .int n
  | .float x => .float x
  | .string s => .string s
  | .array _ => .sequence
  | .table _ => .map

/-- A way in which data is not what is asked for. -/
inductive Mismatch where
  | missingField (name : String)
  | duplicateField (name : String)
  | unknownField (name : String) (known : List String)
  | unknownVariant (name : String) (known : List String)
  | wrongType (found : Found) (expected : String)
  | wrongValue (found : Found) (expected : String)
  | wrongLength (length : Nat) (expected : String)
  | regex (e : RegexError)
deriving Inhabited

/-- The points in which messages differ from place to place. -/
structure Wording where
  null : String
  floats : FloatLayout

/-- The words for JSON texts. -/
def Wording.json : Wording := ⟨"null", .scientific⟩

/-- The words for settings. -/
def Wording.settings : Wording := ⟨"unit value", .positional⟩

/-- What was found, in words. -/
def Found.message (w : Wording) : Found → String
  | .null => w.null
  | .bool b => "boolean `" ++ (if b then "true" else "false") ++ "`"
  | .int n => "integer `" ++ toString n ++ "`"
  | .float x => "floating point `" ++ w.floats.write x ++ "`"
  | .string s => "string " ++ Text.quoted s
  | .sequence => "sequence"
  | .map => "map"

/-- A name as it stands in a message. -/
def named (name : String) : String := "`" ++ name ++ "`"

/-- A choice of names, in words. -/
def oneOf : List String → String
  | [] => ""
  | [a] => named a
  | [a, b] => named a ++ " or " ++ named b
  | names => "one of " ++ ", ".intercalate (names.map named)

/-- The wording of a mismatch. -/
def Mismatch.message (w : Wording) : Mismatch → String
  | .missingField name => "missing field " ++ named name
  | .duplicateField name => "duplicate field " ++ named name
  | .unknownField name known => "unknown field " ++ named name ++ ", expected " ++ oneOf known
  | .unknownVariant name known => "unknown variant " ++ named name ++ ", expected " ++ oneOf known
  | .wrongType found expected =>
    "invalid type: " ++ found.message w ++ ", expected " ++ expected
  | .wrongValue found expected =>
    "invalid value: " ++ found.message w ++ ", expected " ++ expected
  | .wrongLength length expected =>
    "invalid length " ++ toString length ++ ", expected " ++ expected
  | .regex e => e.message

/-- A number of elements, in words. -/
def elementCount (n : Nat) : String :=
  toString n ++ (if n = 1 then " element" else " elements")

end TestSelection
