import TestSelection.Shape.Record

/-!
# Taking data out of values

A value has been read completely before its shape is looked at, so only its shape can be wrong.
-/

namespace TestSelection

namespace Value

/-! ## Scalars -/

/-- A string. -/
def asString : Value → Except Mismatch String
  | .string s => .ok s
  | v => .error (.wrongType v.found "a string")

/-- An integer of 32 bits. -/
def asInt32 : Value → Except Mismatch Int32
  | .int n =>
    if Int32.minValue.toInt ≤ n ∧ n ≤ Int32.maxValue.toInt then .ok (.ofInt n)
    else .error (.wrongValue (.int n) "i32")
  | v => .error (.wrongType v.found "i32")

/-- A name out of a list. A table with the name as its only key stands for the name too, if
nothing or an empty table belongs to the key. -/
def asVariant {α : Type} (ofName : String → Except Mismatch α) : Value → Except Mismatch α
  | .string s => ofName s
  | .table [(k, v)] => do
    let x ← ofName k
    match v with
    | .null => return x
    | .table [] => return x
    | v => .error (.wrongType v.found "unit")
  | .table _ => .error (.wrongValue .map "map with a single key")
  | v => .error (.wrongType v.found "string or map")

/-! ## Sequences -/

/-- The items of an array. -/
def asSequence : Value → Except Mismatch (List Value)
  | .array items => .ok items
  | v => .error (.wrongType v.found "a sequence")

/-- The strings of an array. -/
def asStrings (v : Value) : Except Mismatch (List String) := do (← v.asSequence).mapM asString

/-- A value that may be null, which stands for none. -/
def asOption {α : Type} (read : Value → Except Mismatch α) : Value → Except Mismatch (Option α)
  | .null => .ok none
  | v => do return some (← read v)

end Value

/-! ## Records -/

/-- The mismatch of items beyond the last field. -/
def surplusItems (total expected : Nat) : Mismatch :=
  .wrongLength total (elementCount expected ++ " in sequence")

/-- Read the fields of a record from values, and refuse other entries if told so. -/
def buffered {F : Type} {T : F → Type} {node : Type} (other : String → Except Mismatch Unit)
    (field : (f : F) → node → Except Mismatch (T f)) : Reading Mismatch node T :=
  { fault := id
    field := field
    other := fun key _ => other key
    surplus := surplusItems }

/-- The tag of a record and what else belongs to it, as entries or as items. -/
structure Tagged (α node : Type) where
  tag : α
  content : List (String × node) ⊕ List node

namespace Tagged

/-- Take the tag out of the entries; it may stand anywhere among them, but only once. -/
def splitEntries {α node : Type} (name : String) (ofTag : node → Except Mismatch α)
    (entries : List (String × node)) : Except Mismatch (Tagged α node) :=
  match entries.filter (fun e => e.1 == name) with
  | [] => .error (.missingField name)
  | [(_, x)] => do return ⟨← ofTag x, .inl (entries.filter fun e => e.1 != name)⟩
  | (_, x) :: _ :: _ => do
    let _ ← ofTag x
    .error (.duplicateField name)

/-- Take the tag from the front of the items. -/
def splitItems {α node : Type} (name : String) (ofTag : node → Except Mismatch α) :
    List node → Except Mismatch (Tagged α node)
  | [] => .error (.missingField name)
  | x :: rest => do return ⟨← ofTag x, .inr rest⟩

/-- Read the rest of a tagged record. -/
def fields {F : Type} [DecidableEq F] {T : F → Type} {α node : Type} (t : Tagged α node)
    (r : Record F) (how : Reading Mismatch node T) : Except Mismatch (Record.Fields T) :=
  match t.content with
  | .inl entries => r.ofEntries how (entries.map fun e => (.ok e.1, e.2))
  | .inr items => r.ofItems how items

end Tagged

end TestSelection
