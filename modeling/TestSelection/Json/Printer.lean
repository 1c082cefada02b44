import TestSelection.Decimal.Shortest
import TestSelection.Value

/-!
# Writing JSON

Two layouts of one notation. The compact one has no white space at all. The pretty one puts each
item of a non-empty array or table on a line of its own, indented by two spaces a level, and one
space after the colon.

In strings, only the quote, the backslash and the characters below U+0020 are escaped. All other
characters, U+007F and the non-ASCII ones among them, stand for themselves.
-/

namespace TestSelection.Json

/-! ## Strings -/

/-- The hexadecimal digit of a number below 16. -/
def hexDigit (n : Nat) : Char := Nat.digitChar (n % 16)

/-- How a character is written inside a string. -/
def escape (c : Char) : List Char :=
  if c = '"' then ['\\', '"']
  else if c = '\\' then ['\\', '\\']
  else if c = '\x08' then ['\\', 'b']
  else if c = '\t' then ['\\', 't']
  else if c = '\n' then ['\\', 'n']
  else if c = '\x0c' then ['\\', 'f']
  else if c = '\r' then ['\\', 'r']
  else if c.toNat < 0x20 then ['\\', 'u', '0', '0', hexDigit (c.toNat / 16), hexDigit c.toNat]
  else [c]

/-- A string between its quotes. -/
def quote (s : String) : List Char := '"' :: s.toList.flatMap escape ++ ['"']

/-! ## Scalars -/

def nullText : List Char := ['n', 'u', 'l', 'l']

def boolText (b : Bool) : List Char :=
  if b then ['t', 'r', 'u', 'e'] else ['f', 'a', 'l', 's', 'e']

/-- The digits of an integer, with a sign if it is negative. -/
def intText : Int → List Char
  | .ofNat n => Nat.toDigits 10 n
  | .negSucc n => '-' :: Nat.toDigits 10 (n + 1)

/-- A number that JSON cannot hold is written as null. -/
def floatText (x : Float) : List Char :=
  if x.isFinite then (FloatLayout.scientific.write x).toList else nullText

/-! ## Layouts -/

mutual

/-- Write a value without white space. -/
def compact : Value → List Char
  | .null => nullText
  | .bool b => boolText b
  | .int n => intText n
  | .float x => floatText x
  | .string s => quote s
  | .array [] => ['[', ']']
  | .array (v :: vs) => '[' :: compact v ++ compactItems vs
  | .table [] => ['\x7b', '\x7d']
  | .table ((k, v) :: es) => '\x7b' :: quote k ++ ':' :: compact v ++ compactEntries es

/-- The items after the first one, with the closing bracket. -/
def compactItems : List Value → List Char
  | [] => [']']
  | v :: vs => ',' :: compact v ++ compactItems vs

/-- The entries after the first one, with the closing brace. -/
def compactEntries : List (String × Value) → List Char
  | [] => ['\x7d']
  | (k, v) :: es => ',' :: quote k ++ ':' :: compact v ++ compactEntries es

end

/-- A line break and the indentation of a level. -/
def indent (level : Nat) : List Char := '\n' :: List.replicate (2 * level) ' '

mutual

/-- Write a value that stands at a level of nesting, over several lines. -/
def pretty (level : Nat) : Value → List Char
  | .null => nullText
  | .bool b => boolText b
  | .int n => intText n
  | .float x => floatText x
  | .string s => quote s
  | .array [] => ['[', ']']
  | .array (v :: vs) => '[' :: indent (level + 1) ++ pretty (level + 1) v ++ prettyItems level vs
  | .table [] => ['\x7b', '\x7d']
  | .table ((k, v) :: es) =>
    '\x7b' :: indent (level + 1) ++ quote k ++ ':' :: ' ' :: pretty (level + 1) v
      ++ prettyEntries level es

/-- The items after the first one, with the closing bracket on its own line. -/
def prettyItems (level : Nat) : List Value → List Char
  | [] => indent level ++ [']']
  | v :: vs => ',' :: indent (level + 1) ++ pretty (level + 1) v ++ prettyItems level vs

/-- The entries after the first one, with the closing brace on its own line. -/
def prettyEntries (level : Nat) : List (String × Value) → List Char
  | [] => indent level ++ ['\x7d']
  | (k, v) :: es =>
    ',' :: indent (level + 1) ++ quote k ++ ':' :: ' ' :: pretty (level + 1) v
      ++ prettyEntries level es

end

/-- The two layouts. -/
inductive Layout where
  | compact
  | pretty
deriving DecidableEq, Repr

/-- The text of a value in a layout. -/
def write (layout : Layout) (v : Value) : String :=
  match layout with
  | .compact => String.ofList (compact v)
  | .pretty => String.ofList (pretty 0 v)

end TestSelection.Json
