import TestSelection.Shape.Mismatch

/-!
# Reading records

A record has named fields. A document gives it either as entries, in any order, or as items, in
the order of the fields. Both are read from the front, so the first fault is the one reported.

What was read is a `Partial` record: for each field, its value if there was one. A field that is
given twice is a fault, so what a partial record holds for a field depends on the one entry for it
and on nothing else.

An entry that is no field is refused or passed over, or it is noted: the reading of entries goes
through a monad in which faults can be reported, and what is done about such an entry is done there.
-/

namespace TestSelection

/-- A kind of record: what it is called, and its fields in order. -/
structure Record (F : Type) where
  title : String
  fields : List F
  name : F → String

/-- The fields of a record that were read. -/
abbrev Partial {F : Type} (T : F → Type) := (f : F) → Option (T f)

/-- How to read the parts of a record: a field, an entry that is no field, items beyond the last
field, and how to report a mismatch. -/
structure ReadingIn (m : Type → Type) (ε node : Type) {F : Type} (T : F → Type) where
  fault : Mismatch → ε
  field : (f : F) → node → Except ε (T f)
  other : String → node → m Unit
  surplus : Nat → Nat → ε

/-- How to read a record of which nothing is noted but faults. -/
abbrev Reading (ε node : Type) {F : Type} (T : F → Type) := ReadingIn (Except ε) ε node T

namespace Partial

variable {F : Type} [DecidableEq F] {T : F → Type}

/-- No field was read. -/
def empty : Partial T := fun _ => none

/-- Keep the value of a field. -/
def set (p : Partial T) (f : F) (x : T f) : Partial T :=
  fun g => if h : f = g then some (h ▸ x) else p g

end Partial

namespace Record

variable {F : Type} [DecidableEq F] {T : F → Type} {ε node : Type}

/-- The field of a name. -/
def field? (r : Record F) (key : String) : Option F := r.fields.find? fun f => r.name f == key

/-- The names of the fields. -/
def names (r : Record F) : List String := r.fields.map r.name

/-- The record as a sequence, in words. -/
def sequence (r : Record F) : String := r.title ++ " with " ++ elementCount r.fields.length

/-- A record that was read: its fields, and the mismatch to report if a field is missing. -/
structure Fields (T : F → Type) where
  values : Partial T
  missing : F → Mismatch

section

variable {m : Type → Type} [Monad m] [MonadLiftT (Except ε) m]

/-- Read entries into a record of which some fields are known. -/
def addEntries (r : Record F) (how : ReadingIn m ε node T) :
    Partial T → List (Except ε String × node) → m (Partial T)
  | p, [] => pure p
  | p, (key, x) :: rest => do
    let key ← key
    match r.field? key with
    | none => do
      how.other key x
      addEntries r how p rest
    | some f =>
      if (p f).isSome then
        Except.error (how.fault (.duplicateField key))
      else do
        let value ← how.field f x
        addEntries r how (p.set f value) rest

/-- Read a record from entries. -/
def ofEntries (r : Record F) (how : ReadingIn m ε node T)
    (entries : List (Except ε String × node)) : m (Fields T) := do
  let values ← r.addEntries how .empty entries
  return ⟨values, fun f => .missingField (r.name f)⟩

end

/-- Read items into the given fields, one after the other. -/
def addItems (how : Reading ε node T) : Partial T → List F → List node → Except ε (Partial T)
  | p, f :: fs, x :: xs => do
    let value ← how.field f x
    addItems how (p.set f value) fs xs
  | p, _, _ => .ok p

/-- Read a record from items; there may be fewer items than fields, but not more. -/
def ofItems (r : Record F) (how : Reading ε node T) (items : List node) :
    Except ε (Fields T) := do
  let values ← addItems how .empty r.fields items
  if r.fields.length < items.length then
    .error (how.surplus items.length r.fields.length)
  else
    return ⟨values, fun f => .wrongLength (r.fields.findIdx (· = f)) r.sequence⟩

/-- The value of a field that has to be there. -/
def Fields.required (fields : Fields T) (f : F) : Except Mismatch (T f) :=
  match fields.values f with
  | some x => .ok x
  | none => .error (fields.missing f)

/-- The value of a field that may be left out. -/
def Fields.optional (fields : Fields T) (f : F) (absent : T f) : T f :=
  (fields.values f).getD absent

end Record

end TestSelection
