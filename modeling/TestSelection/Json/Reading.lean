import TestSelection.Json.Document
import TestSelection.Shape.Record

/-!
# Taking data out of a JSON text

The tree of a text is walked in the order of the text. The walk ends at the first fault, which is
either a place where the text is not JSON or a mismatch between what stands there and what is
asked for.

Some values are read as a whole before anyone looks at them: `Tree.toValue`. Such values may be
nested to a limited depth; values that are passed over may be nested to any depth.
-/

namespace TestSelection.Json

/-- Why a text is refused. -/
inductive Fault where
  | notJson
  | mismatch (m : Mismatch)
deriving Inhabited

/-- The number of arrays and tables that may be open at a time. -/
def depthLimit : Nat := 127

namespace Tree

/-- The fault of a tree that stands where something else is expected. -/
def wrong (expected : String) : Tree → Fault
  | .null => .mismatch (.wrongType .null expected)
  | .bool b => .mismatch (.wrongType (.bool b) expected)
  | .number n => .mismatch (.wrongType n.found expected)
  | .string s => .mismatch (.wrongType (.string s) expected)
  | .array _ => .mismatch (.wrongType .sequence expected)
  | .table _ => .mismatch (.wrongType .map expected)
  | .unreadable => .notJson
  | .broken => .notJson

/-! ## Scalars -/

/-- A string. -/
def asString : Tree → Except Fault String
  | .string s => .ok s
  | t => .error (t.wrong "a string")

/-- A string, where null stands for none. -/
def asOptionalString : Tree → Except Fault (Option String)
  | .null => .ok none
  | t => do return some (← t.asString)

/-- A count that fits into 64 bits. -/
def asCount : Tree → Except Fault Nat
  | .number (.int n) =>
    if 0 ≤ n ∧ n < UInt64.size then .ok n.toNat
    else .error (.mismatch (.wrongValue (.int n) "usize"))
  | t => .error (t.wrong "usize")

/-! ## Arrays and tables -/

/-- The items of an array. -/
def asSequence : Tree → Except Fault (List Tree)
  | .array items => .ok items
  | t => .error (t.wrong "a sequence")

/-- Read trees, one after the other. -/
def each {α : Type} (read : Tree → Except Fault α) : List Tree → Except Fault (List α)
  | [] => .ok []
  | t :: ts => do
    let x ← read t
    return x :: (← each read ts)

mutual

/-- Pass over a tree, which only has to be JSON. -/
def skip : Tree → Except Fault Unit
  | .array items => skipItems items
  | .table entries => skipEntries entries
  | .broken => .error .notJson
  | _ => .ok ()

/-- Pass over the items of an array. -/
def skipItems : List Tree → Except Fault Unit
  | [] => .ok ()
  | t :: ts => do
    skip t
    skipItems ts

/-- Pass over the entries of a table. -/
def skipEntries : List (Option String × Tree) → Except Fault Unit
  | [] => .ok ()
  | (_, t) :: es => do
    skip t
    skipEntries es

end

/-- A key, as a step that may fail. -/
def key : Option String → Except Fault String
  | some k => .ok k
  | none => .error .notJson

mutual

/-- A tree as a value. The first argument says how many arrays and tables may be entered. -/
def toValue (room : Nat) : Tree → Except Fault Value
  | .null => .ok .null
  | .bool b => .ok (.bool b)
  | .number n => .ok n
  | .string s => .ok (.string s)
  | .array items =>
    if room = 0 then .error .notJson else do return .array (← toValues (room - 1) items)
  | .table entries =>
    if room = 0 then .error .notJson else do return .table (← toFields (room - 1) entries)
  | .unreadable => .error .notJson
  | .broken => .error .notJson

/-- Trees as values. -/
def toValues (room : Nat) : List Tree → Except Fault (List Value)
  | [] => .ok []
  | t :: ts => do
    let v ← toValue room t
    return v :: (← toValues room ts)

/-- The entries of a table as entries of values. -/
def toFields (room : Nat) : List (Option String × Tree) → Except Fault (List (String × Value))
  | [] => .ok []
  | (k, t) :: es => do
    let k ← key k
    let v ← toValue room t
    return (k, v) :: (← toFields room es)

end

mutual

/-- A value as a tree. -/
def ofValue : Value → Tree
  | .null => .null
  | .bool b => .bool b
  | .int n => .number (.int n)
  | .float x => .number (.float x)
  | .string s => .string s
  | .array items => .array (ofItems items)
  | .table entries => .table (ofEntries entries)

/-- Values as trees. -/
def ofItems : List Value → List Tree
  | [] => []
  | v :: vs => ofValue v :: ofItems vs

/-- The entries of a table as entries of trees. -/
def ofEntries : List (String × Value) → List (Option String × Tree)
  | [] => []
  | (k, v) :: es => (some k, ofValue v) :: ofEntries es

end

/-! ## Tagged values -/

/-- The tag of a tagged value, which has to be a string, and one that is known. -/
def asTag {α : Type} (ofName : String → Except Mismatch α) : Tree → Except Fault String
  | .string s =>
    match ofName s with
    | .ok _ => .ok s
    | .error m => .error (.mismatch m)
  | t => .error (t.wrong "variant identifier")

/-- The entries of a tagged table. The tag is checked when it is met. -/
def taggedFields {α : Type} (room : Nat) (tag : String) (ofName : String → Except Mismatch α) :
    Bool → List (Option String × Tree) → Except Fault (List (String × Value))
  | seen, [] => if seen then .ok [] else .error (.mismatch (.missingField tag))
  | seen, (k, t) :: es => do
    let k ← key k
    if k = tag then
      if seen then .error (.mismatch (.duplicateField tag))
      else do
        let s ← asTag ofName t
        return (k, .string s) :: (← taggedFields room tag ofName true es)
    else do
      let v ← toValue room t
      return (k, v) :: (← taggedFields room tag ofName seen es)

/-- A tagged table, or an array that starts with the tag, as a value. -/
def toTagged {α : Type} (room : Nat) (title tag : String)
    (ofName : String → Except Mismatch α) : Tree → Except Fault Value
  | .table entries =>
    if room = 0 then .error .notJson
    else do return .table (← taggedFields (room - 1) tag ofName false entries)
  | .array items =>
    if room = 0 then .error .notJson
    else
      match items with
      | [] => .error (.mismatch (.missingField tag))
      | t :: ts => do
        let s ← asTag ofName t
        return .array (.string s :: (← toValues (room - 1) ts))
  | t => .error (t.wrong title)

/-! ## Names -/

/-- A name out of a list, or a table with the name as its only key and null as its value. -/
def asVariant {α : Type} (ofName : String → Except Mismatch α) : Tree → Except Fault α
  | .string s => (ofName s).mapError .mismatch
  | .table ((some k, t) :: rest) => do
    let x ← (ofName k).mapError .mismatch
    match t with
    | .null => if rest.isEmpty then return x else .error .notJson
    | t => .error (t.wrong "unit")
  | _ => .error .notJson

end Tree

/-! ## Records -/

/-- Whether a record is read straight from the text, or from a tree that was read as a whole. -/
inductive Manner where
  | streamed
  | buffered
deriving DecidableEq, Repr

/-- What surplus items are: straight from the text, a place where the text had to end. -/
def Manner.surplus (manner : Manner) (total expected : Nat) : Fault :=
  match manner with
  | .streamed => .notJson
  | .buffered => .mismatch (.wrongLength total (elementCount expected ++ " in sequence"))

/-- Read the fields of a record and pass over other entries. -/
def Manner.reading {F : Type} {T : F → Type} (manner : Manner)
    (field : (f : F) → Tree → Except Fault (T f)) : Reading Fault Tree T :=
  { fault := .mismatch
    field := field
    other := fun _ t => t.skip
    surplus := manner.surplus }

/-- Read a record from a table or an array. -/
def Tree.record {F : Type} [DecidableEq F] {T : F → Type} (r : Record F)
    (how : Reading Fault Tree T) : Tree → Except Fault (Record.Fields T)
  | .array items => r.ofItems how items
  | .table entries => r.ofEntries how (entries.map fun e => (Tree.key e.1, e.2))
  | t => .error (t.wrong r.title)

/-- Report mismatches of data as faults of the text. -/
def ofShape {α : Type} (result : Except Mismatch α) : Except Fault α :=
  result.mapError .mismatch

/-- Read the whole of a text. -/
def Document.read {α : Type} (read : Tree → Except Fault α) (d : Document) : Except Fault α := do
  let x ← read d.root
  if d.complete then return x else .error .notJson

end TestSelection.Json
