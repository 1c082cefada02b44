import TestSelection.Regex.Expr
import TestSelection.Regex.Pattern.Escape

/-!
# Writing expressions as patterns

Every expression can be written as a pattern again. Texts of more than one character,
concatenations and alternations stand in groups of their own, and repetition operators follow what
they repeat directly.

That a repetition is not put into a group when it is repeated again has two consequences: the
pattern nests no deeper than it must, and an option of a repetition, such as `+?`, is the same text
as a repetition that prefers few.
-/

namespace TestSelection.Regex

/-- A character that stands for itself. -/
def plainChar (c : Char) : List Char := if isMeta c then ['\\', c] else [c]

/-- A range in a class. -/
def rangeText (r : Nat × Nat) : List Char :=
  let lo := plainChar (Char.ofNat r.1)
  let hi := plainChar (Char.ofNat r.2)
  if r.1 = r.2 then lo else if r.1 + 1 = r.2 then lo ++ hi else lo ++ '-' :: hi

/-- A byte in a class of bytes. Only visible ASCII characters are written as they are. -/
def byteChar (n : Nat) : List Char :=
  let c := Char.ofNat n
  if 0x21 ≤ n ∧ n ≤ 0x7E then plainChar c
  else if n = 0x20 then [c]
  else "\\x".toList ++ [Nat.digitChar (n / 16 % 16), Nat.digitChar (n % 16)].map Char.toUpper

/-- A range in a class of bytes. -/
def byteRangeText (r : Nat × Nat) : List Char :=
  if r.1 = r.2 then byteChar r.1
  else if r.1 + 1 = r.2 then byteChar r.1 ++ byteChar r.2
  else byteChar r.1 ++ '-' :: byteChar r.2

/-- A condition that does not depend on Unicode, when it says so. -/
def asciiText (unicode : Bool) (body : String) : String :=
  if unicode then body else "(?-u:" ++ body ++ ")"

/-- A condition as a pattern. -/
def Look.text : Look → String
  | .textStart => "\\A"
  | .textEnd => "\\z"
  | .lineStart => "(?m:^)"
  | .lineEnd => "(?m:$)"
  | .lineStartCRLF => "(?mR:^)"
  | .lineEndCRLF => "(?mR:$)"
  | .wordBoundary u => asciiText u "\\b"
  | .notWordBoundary u => asciiText u "\\B"
  | .wordStart u => asciiText u "\\b\x7bstart\x7d"
  | .wordEnd u => asciiText u "\\b\x7bend\x7d"
  | .wordStartHalf u => asciiText u "\\b\x7bstart-half\x7d"
  | .wordEndHalf u => asciiText u "\\b\x7bend-half\x7d"

/-- A repetition operator. An exact count has no preference to show. -/
def operatorText (least : Nat) (greatest : Option Nat) (greedy : Bool) : List Char :=
  let digits (n : Nat) := Nat.toDigits 10 n
  let lazily (operator : List Char) := if greedy then operator else operator ++ ['?']
  match greatest with
  | some 1 => if least = 0 then lazily ['?'] else if least = 1 then [] else
      lazily ('\x7b' :: digits least ++ ",1\x7d".toList)
  | none =>
    if least = 0 then lazily ['*']
    else if least = 1 then lazily ['+']
    else lazily ('\x7b' :: digits least ++ ",\x7d".toList)
  | some n =>
    if least = n then '\x7b' :: digits n ++ ['\x7d']
    else lazily ('\x7b' :: digits least ++ ',' :: digits n ++ ['\x7d'])

/-- A non-capturing group. -/
def groupText (body : List Char) : List Char := '(' :: '?' :: ':' :: body ++ [')']

namespace Expr

mutual

/-- An expression as a pattern. -/
def print : Expr → List Char
  | .empty => groupText []
  | .text chars =>
    let body := chars.flatMap plainChar
    if 1 < chars.length then groupText body else body
  | .set unicode s =>
    if s.ranges.isEmpty then "[a&&b]".toList
    else if unicode then '[' :: s.ranges.flatMap rangeText ++ [']']
    else "(?-u:[".toList ++ s.ranges.flatMap byteRangeText ++ "])".toList
  | .look l => l.text.toList
  | .repetition least greatest greedy sub => print sub ++ operatorText least greatest greedy
  | .capture _ none sub => '(' :: print sub ++ [')']
  | .capture _ (some name) sub => "(?P<".toList ++ name.toList ++ '>' :: print sub ++ [')']
  | .concat parts => groupText (printParts parts)
  | .alternation [] => groupText []
  | .alternation (x :: xs) => groupText (print x ++ printBranches xs)

/-- The parts of a concatenation, side by side. -/
def printParts : List Expr → List Char
  | [] => []
  | x :: xs => print x ++ printParts xs

/-- The branches after the first one, each with the bar before it. -/
def printBranches : List Expr → List Char
  | [] => []
  | x :: xs => '|' :: print x ++ printBranches xs

end

end Expr

end TestSelection.Regex
