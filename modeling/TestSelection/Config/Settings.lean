import TestSelection.Config.KeyPath

/-!
# Settings

Settings are a table that is filled key by key. Each key of a document is a path, and its value is
put at the end of the path. What is missing on the way is made, and what is of another kind is
replaced. A table does not replace a table: its entries are put into the table that is there. Any
other value replaces what is there.

A key that was set once keeps its place in the order of the keys.
-/

namespace TestSelection

/-- The entries of a table; no other value has any. -/
def Value.tableEntries : Value → List (String × Value)
  | .table entries => entries
  | _ => []

/-- The items of an array; no other value has any. -/
def Value.arrayItems : Value → List Value
  | .array items => items
  | _ => []

namespace Settings

/-! ## Changing values -/

/-- Change the value of a key; null stands for a missing one. -/
def alter (key : String) (change : Value → Value) : List (String × Value) → List (String × Value)
  | [] => [(key, change .null)]
  | (k, v) :: es => if k = key then (k, change v) :: es else (k, v) :: alter key change es

/-- Change the item at a position, after filling the items up with null. -/
def alterAt (change : Value → Value) : Nat → List Value → List Value
  | 0, [] => [change .null]
  | 0, v :: vs => change v :: vs
  | i + 1, [] => .null :: alterAt change i []
  | i + 1, v :: vs => v :: alterAt change i vs

/-- Change the item at a position that may count from the end. If there are not that many items,
the missing ones are put in front. -/
def alterFrom (change : Value → Value) (i : Int) (items : List Value) : List Value :=
  let fromEnd := (items.length : Int) + i
  if 0 ≤ i then alterAt change i.toNat items
  else if 0 ≤ fromEnd then alterAt change fromEnd.toNat items
  else alterAt change 0 (List.replicate (-fromEnd).toNat .null ++ items)

/-- Change what stands at the end of some steps. -/
def alterAlong (change : Value → Value) : List KeyStep → Value → Value
  | [], v => change v
  | .key name :: steps, v => .table (alter name (alterAlong change steps) v.tableEntries)
  | .index i :: steps, v => .array (alterFrom (alterAlong change steps) i v.arrayItems)

/-! ## Putting values together -/

mutual

/-- Put a new value in the place of an old one. -/
def merge (old : Value) : Value → Value
  | .table entries => .table (mergeEntries old.tableEntries entries)
  | new => new

/-- Put new entries into old ones. -/
def mergeEntries (old : List (String × Value)) : List (String × Value) → List (String × Value)
  | [] => old
  | (k, v) :: es => mergeEntries (alter k (fun x => merge x v) old) es

end

mutual

/-- In all tables, keep the last value of each key, in the place of the first one. -/
def lastOfEach : Value → Value
  | .array items => .array (lastOfItems items)
  | .table entries => .table (lastOfEntries [] entries)
  | v => v

/-- Do so in the items of an array. -/
def lastOfItems : List Value → List Value
  | [] => []
  | v :: vs => lastOfEach v :: lastOfItems vs

/-- Do so in the entries of a table, of which some are known. -/
def lastOfEntries (known : List (String × Value)) :
    List (String × Value) → List (String × Value)
  | [] => known
  | (k, v) :: es => lastOfEntries (alter k (fun _ => lastOfEach v) known) es

end

/-! ## Filling -/

/-- Put a value at the end of a path. -/
def set (settings : List (String × Value)) (path : KeyPath) (v : Value) : List (String × Value) :=
  alter path.root (alterAlong (fun old => merge old v) path.steps) settings

/-- The settings of a document. -/
def ofEntries (entries : List (String × Value)) : List (String × Value) :=
  entries.foldl (fun settings e => set settings (.ofKey e.1) e.2) []

end Settings

end TestSelection
