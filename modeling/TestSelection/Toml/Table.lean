import TestSelection.Value

/-!
# Tables in TOML

A TOML document says where its values go in three ways: by headers `[a.b]`, which name a table, by
headers `[[a.b]]`, which add a table to an array of tables, and by dotted keys `a.b = 1`. A table
may be described in several places only if each place leaves it open:

* a table that was only passed on the way to another one may still get a header of its own,
* a table that was made by dotted keys may get more of them,
* a table with a header of its own, and a table in braces, are complete.

`Entries.add?` adds a section to the tables so far, and refuses a section that describes anything
a second time.
-/

namespace TestSelection.Toml

/-! ## Open tables -/

/-- How a table came about. -/
inductive Origin where
  /-- By its own header. -/
  | header
  /-- On the way to another table. -/
  | passed
  /-- By a dotted key. -/
  | dotted
deriving DecidableEq, Repr

/-- What stands under a key. -/
inductive Node where
  /-- A complete value. -/
  | value (v : Value)
  | table (origin : Origin) (entries : List (String × Node))
  /-- An array of tables: those before the last one, backwards, and the last one, which is open. -/
  | tables (before : List Value) (last : List (String × Node))

/-- The entries of an open table. -/
abbrev Entries := List (String × Node)

mutual

/-- A node as a value. -/
def Node.toValue : Node → Value
  | .value v => v
  | .table _ entries => .table (entryValues entries)
  | .tables before last => .array (before.reverse ++ [.table (entryValues last)])

/-- Entries as entries of values. -/
def entryValues : List (String × Node) → List (String × Value)
  | [] => []
  | (k, x) :: es => (k, x.toValue) :: entryValues es

end

namespace Entries

/-- Change what stands under a key. A new key goes to the end. -/
def alter? (key : String) (change : Option Node → Option Node) : Entries → Option Entries
  | [] => do return [(key, ← change none)]
  | (k, x) :: es =>
    if k = key then do return (k, ← change (some x)) :: es
    else do return (k, x) :: (← alter? key change es)

/-- Remove a key. -/
def erase (key : String) (es : Entries) : Entries := es.filter fun e => e.1 != key

end Entries

/-! ## Headers -/

/-- Change the table that a node stands for; the last one of an array of tables. -/
def Node.within? (change : Entries → Option Entries) : Node → Option Node
  | .value _ => none
  | .table origin es => do return .table origin (← change es)
  | .tables before last => do return .tables before (← change last)

/-- Go along a path of keys, and change the table in which the last key stands. -/
def Entries.along? (change : String → Entries → Option Entries) :
    List String → Entries → Option Entries
  | [], _ => none
  | [key], es => change key es
  | key :: path, es =>
    es.alter? key fun
      | none => do return .table .passed (← along? change path [])
      | some x => x.within? (along? change path)

/-- Fill the table of a header. It goes to the end of the table around it. -/
def Entries.openTable? (fill : Entries → Option Entries) (key : String) (es : Entries) :
    Option Entries :=
  match es.lookup key with
  | none => do return es ++ [(key, .table .header (← fill []))]
  | some (.table .passed inner) => do
    return es.erase key ++ [(key, .table .header (← fill inner))]
  | some _ => none

/-- Fill one more table of an array of tables. -/
def Entries.pushTable? (fill : Entries → Option Entries) (key : String) (es : Entries) :
    Option Entries :=
  es.alter? key fun
    | none => do return .tables [] (← fill [])
    | some (.tables before last) => do
      return .tables (.table (entryValues last) :: before) (← fill [])
    | some _ => none

/-! ## Dotted keys -/

/-- Put a value at a dotted key. The table right around it has to be one of dotted keys, or the
one in which the key starts. -/
def Entries.insert? (v : Value) : List String → Entries → Option Entries
  | [], _ => none
  | [key], es => if (es.lookup key).isSome then none else some (es ++ [(key, .value v)])
  | key :: path, es =>
    es.alter? key fun
      | none => do return .table .dotted (← insert? v path [])
      | some (.table .dotted inner) => do return .table .dotted (← insert? v path inner)
      | some (.table .passed inner) =>
        if path.length = 1 then none else do return .table .passed (← insert? v path inner)
      | some (.tables before last) =>
        if path.length = 1 then none else do return .tables before (← insert? v path last)
      | some _ => none

/-- Put values at dotted keys, one after the other. -/
def Entries.insertAll? (es : Entries) (assignments : List (List String × Value)) :
    Option Entries :=
  assignments.foldlM (fun es a => es.insert? a.2 a.1) es

/-- The table of some assignments. -/
def tableOf? (assignments : List (List String × Value)) : Option (List (String × Value)) := do
  return entryValues (← Entries.insertAll? [] assignments)

/-! ## Sections -/

/-- What a section starts with. -/
inductive Header where
  /-- The section before the first header. -/
  | top
  | table (path : List String)
  | tables (path : List String)
deriving DecidableEq, Repr

/-- A header with the assignments below it. -/
structure Section where
  header : Header
  assignments : List (List String × Value)

/-- Add a section to a document. -/
def Entries.add? (es : Entries) (s : Section) : Option Entries :=
  let fill (es : Entries) := es.insertAll? s.assignments
  match s.header with
  | .top => fill es
  | .table path => Entries.along? (Entries.openTable? fill) path es
  | .tables path => Entries.along? (Entries.pushTable? fill) path es

/-- The table of a document. -/
def documentOf? (sections : List Section) : Option (List (String × Value)) := do
  return entryValues (← sections.foldlM Entries.add? [])

end TestSelection.Toml
