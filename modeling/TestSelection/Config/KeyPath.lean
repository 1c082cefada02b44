import TestSelection.Toml.Document

/-!
# Key paths

A key path leads to a place in nested tables and arrays, such as `allowlist[0].values`. It starts
with a name, after which names follow a point and positions stand in brackets. Positions may count
from the end: `-1` is the last one.
-/

namespace TestSelection

/-- A step into a table or an array. -/
inductive KeyStep where
  | key (name : String)
  | index (i : Int)
deriving DecidableEq, Repr

/-- A key path. -/
structure KeyPath where
  root : String
  steps : List KeyStep
deriving DecidableEq, Repr

namespace KeyPath

/-- A name, and what follows it. -/
def name? (text : List Char) : Option (String × List Char) :=
  match text.takeWhile Toml.isKeyChar with
  | [] => none
  | cs => some (String.ofList cs, text.dropWhile Toml.isKeyChar)

/-- A position, and what follows it. It has to fit into 64 bits. -/
def position? (text : List Char) : Option (Int × List Char) :=
  let (negative, text) :=
    match text with
    | '-' :: rest => (true, rest)
    | text => (false, text)
  match text.takeWhile Toml.isDigit with
  | [] => none
  | ds =>
    let n : Int := Toml.numberOf 10 ds
    let i := if negative then -n else n
    if Int64.minValue.toInt ≤ i ∧ i ≤ Int64.maxValue.toInt then
      some (i, text.dropWhile Toml.isDigit)
    else none

/-- The steps of a text. The first argument bounds their number. -/
def steps? : Nat → List Char → Option (List KeyStep)
  | _, [] => some []
  | 0, _ => none
  | most + 1, '.' :: rest => do
    let (name, rest) ← name? rest
    return .key name :: (← steps? most rest)
  | most + 1, '[' :: rest => do
    let (i, rest) ← position? (Toml.skipSpaces rest)
    match Toml.skipSpaces rest with
    | ']' :: rest => return .index i :: (← steps? most rest)
    | _ => none
  | _, _ => none

/-- The key path of a text. -/
def ofString? (text : String) : Option KeyPath := do
  let (root, rest) ← name? text.toList
  return ⟨root, ← steps? rest.length rest⟩

/-- The path of a key. A key that is no path is a name as it stands. -/
def ofKey (key : String) : KeyPath := (ofString? key).getD ⟨key, []⟩

end KeyPath

end TestSelection
