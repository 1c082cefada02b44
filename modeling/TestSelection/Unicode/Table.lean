import TestSelection.Unicode.CodeSet

/-!
# Compact tables

Character data is written as text. A number is a group of letters in base 32, lowest digit first:
the last digit of a number is one of `A` to `Z` and `0` to `5`, all digits before it are among
`a` to `z`, `6` to `9`, `-` and `+`. A table is a list of numbers; what they mean is said by the
function that reads it.
-/

namespace TestSelection.Unicode.Table

/-- The value of a letter, and whether more digits follow. -/
def digit (c : Char) : Nat × Bool :=
  if 'A' ≤ c ∧ c ≤ 'Z' then (c.toNat - 'A'.toNat, false)
  else if '0' ≤ c ∧ c ≤ '5' then (c.toNat - '0'.toNat + 26, false)
  else if 'a' ≤ c ∧ c ≤ 'z' then (c.toNat - 'a'.toNat, true)
  else if '6' ≤ c ∧ c ≤ '9' then (c.toNat - '6'.toNat + 26, true)
  else if c = '-' then (30, true)
  else (31, true)

/-- The numbers of a text, given what was read of the current one and the weight of its next
digit. -/
def numbersFrom (acc weight : Nat) : List Char → List Nat
  | [] => []
  | c :: cs =>
    match digit c with
    | (d, true) => numbersFrom (acc + d * weight) (weight * 32) cs
    | (d, false) => (acc + d * weight) :: numbersFrom 0 1 cs

/-- The numbers of a table. -/
def numbers (lines : List String) : List Nat := numbersFrom 0 1 (lines.flatMap String.toList)

/-- Read ranges: the gap before each, and how far its end lies from its start. -/
def rangesFrom (start : Nat) : List Nat → List (Nat × Nat)
  | gap :: span :: rest =>
    (start + gap, start + gap + span) :: rangesFrom (start + gap + span + 1) rest
  | _ => []

/-- Read a set of characters. -/
def set (lines : List String) : CodeSet := .ofRanges (rangesFrom 0 (numbers lines))

/-- Read a partition of all code points: the length of each run and the number of its class. -/
def runsFrom (start : Nat) : List Nat → List (Nat × Nat × Nat)
  | length :: value :: rest => (start, start + length - 1, value) :: runsFrom (start + length) rest
  | _ => []

/-- Read a partition, as a list of first code point, last code point and class. -/
def runs (lines : List String) : List (Nat × Nat × Nat) := runsFrom 0 (numbers lines)

/-- The code points of the classes for which a test holds. -/
def select (table : List (Nat × Nat × Nat)) (test : Nat → Bool) : CodeSet :=
  .ofRanges <| table.filterMap fun (lo, hi, value) => if test value then some (lo, hi) else none

end TestSelection.Unicode.Table
