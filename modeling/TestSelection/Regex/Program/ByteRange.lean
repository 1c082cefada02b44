import TestSelection.Unicode.CodeSet

/-!
# Characters as bytes

The UTF-8 forms of a range of characters, as sequences of byte ranges: a character is in the range
if its bytes lie, one by one, in the ranges of one of the sequences. A range is cut wherever the
bytes of its two ends would not span all that lies between them.
-/

namespace TestSelection.Regex.Program

/-- A range of bytes, with both ends in it. -/
abbrev ByteRange := Nat × Nat

/-- The bytes of a character in UTF-8. -/
def utf8Bytes (c : Nat) : List Nat :=
  if c < 0x80 then [c]
  else if c < 0x800 then [0xC0 + c / 0x40, 0x80 + c % 0x40]
  else if c < 0x10000 then [0xE0 + c / 0x1000, 0x80 + c / 0x40 % 0x40, 0x80 + c % 0x40]
  else [0xF0 + c / 0x40000, 0x80 + c / 0x1000 % 0x40, 0x80 + c / 0x40 % 0x40, 0x80 + c % 0x40]

/-- Where to cut a range so that the last bytes run through whole blocks. -/
def blockCut? (lo hi block : Nat) : Option Nat :=
  if lo / block = hi / block then none
  else if lo % block ≠ 0 then some (lo - lo % block + block - 1)
  else if hi % block ≠ block - 1 then some (hi - hi % block - 1)
  else none

/-- The last character of the first part of a range that has to be cut. -/
def cut? (lo hi : Nat) : Option Nat :=
  let atLength := [0x7F, 0x7FF, 0xFFFF].find? fun last => lo ≤ last && last < hi
  if lo < 0xE000 ∧ 0xD7FF < hi then some 0xD7FF
  else if atLength.isSome then atLength
  else if hi ≤ 0x7F then none
  else [0x40, 0x1000, 0x40000].findSome? (blockCut? lo hi)

/-- The sequences of a range; the first argument bounds how often a part is cut again. -/
def sequencesOf : Nat → Nat → Nat → List (List ByteRange)
  | 0, _, _ => []
  | depth + 1, lo, hi =>
    match cut? lo hi with
    | some last =>
      sequencesOf depth lo last ++ sequencesOf depth (Unicode.succCode last) hi
    | none => [(utf8Bytes lo).zip (utf8Bytes hi)]

/-- The sequences of a range of characters. -/
def sequences (range : Nat × Nat) : List (List ByteRange) := sequencesOf 16 range.1 range.2

end TestSelection.Regex.Program
