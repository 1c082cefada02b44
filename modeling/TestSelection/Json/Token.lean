import TestSelection.Json.Number
import TestSelection.Text.Hex

/-!
# The tokens of a JSON text

`Token.scan` cuts a text into tokens, left to right. Where no token starts, it writes
`Token.broken` and stops, so the tokens before a fault are always there to be read.

Some tokens have the right form and still stand for nothing: a string with half a surrogate pair,
a number too large. They are tokens without a value. Whether that matters is for the reader to
say: a field that nobody asks for may hold such a token.

The text is given as a list of optional characters, where `none` is a stretch of bytes that is no
character. Inside a string it takes away the string's value; anywhere else no token starts there.
-/

namespace TestSelection.Json

/-- A token; strings and numbers may have no value. -/
inductive Token where
  | openArray
  | closeArray
  | openTable
  | closeTable
  | comma
  | colon
  | null
  | bool (b : Bool)
  | number (value : Option Value)
  | string (value : Option String)
  | broken

/-! ## Strings -/

/-- A part of a string as written: a character, a UTF-16 unit given by number, or bytes that are no
character. -/
inductive Piece where
  | char (c : Char)
  | unit (n : Nat)
  | junk
deriving DecidableEq, Repr

/-- The value of four hexadecimal digits. -/
def hexValue4? (a b c d : Char) : Option Nat := do
  let a ← Text.hexValue? a
  let b ← Text.hexValue? b
  let c ← Text.hexValue? c
  let d ← Text.hexValue? d
  return ((a * 16 + b) * 16 + c) * 16 + d

/-- The character that follows a backslash, for the escapes of one letter. -/
def unescape? (c : Char) : Option Char :=
  if c = '"' ∨ c = '\\' ∨ c = '/' then some c
  else if c = 'b' then some '\x08'
  else if c = 'f' then some '\x0c'
  else if c = 'n' then some '\n'
  else if c = 'r' then some '\r'
  else if c = 't' then some '\t'
  else none

/-- The pieces of a string up to its closing quote, and the text after it. -/
def scanString : List (Option Char) → Option (List Piece × List (Option Char))
  | some '"' :: rest => some ([], rest)
  | some '\\' :: some 'u' :: some a :: some b :: some c :: some d :: rest => do
    let n ← hexValue4? a b c d
    let (pieces, rest) ← scanString rest
    return (.unit n :: pieces, rest)
  | some '\\' :: some c :: rest => do
    let c ← unescape? c
    let (pieces, rest) ← scanString rest
    return (.char c :: pieces, rest)
  | some '\\' :: _ => none
  | some c :: rest =>
    if c.toNat < 0x20 then none
    else do
      let (pieces, rest) ← scanString rest
      return (.char c :: pieces, rest)
  | none :: rest => do
    let (pieces, rest) ← scanString rest
    return (.junk :: pieces, rest)
  | [] => none

/-- The character of a surrogate pair. -/
def pair (high low : Nat) : Char := Char.ofNat (0x10000 + (high - 0xD800) * 0x400 + (low - 0xDC00))

/-- Put the pieces together. A high surrogate needs a low one right after it, and a low one never
stands alone. -/
def assemble : List Piece → Option (List Char)
  | [] => some []
  | .char c :: rest => (assemble rest).map (c :: ·)
  | .unit n :: rest =>
    if n < 0xD800 ∨ 0xDFFF < n then (assemble rest).map (Char.ofNat n :: ·)
    else if n < 0xDC00 then
      match rest with
      | .unit m :: rest =>
        if 0xDC00 ≤ m ∧ m ≤ 0xDFFF then (assemble rest).map (pair n m :: ·) else none
      | _ => none
    else none
  | .junk :: _ => none

/-! ## Numbers -/

/-- The value of a decimal digit. -/
def digit? : Option Char → Option Nat
  | some c => if '0' ≤ c ∧ c ≤ '9' then some (c.toNat - '0'.toNat) else none
  | none => none

/-- The digits that the text starts with, and the text after them. -/
def scanDigits : List (Option Char) → List Nat × List (Option Char)
  | [] => ([], [])
  | c :: rest =>
    match digit? c with
    | some d => let (ds, rest) := scanDigits rest; (d :: ds, rest)
    | none => ([], c :: rest)

/-- Whole digits: a zero alone, or digits that do not start with zero. -/
def scanWhole (text : List (Option Char)) : Option (List Nat × List (Option Char)) :=
  match scanDigits text with
  | ([], _) => none
  | (0 :: _ :: _, _) => none
  | (ds, rest) => some (ds, rest)

/-- A point and at least one digit, if there is a point. -/
def scanFraction : List (Option Char) → Option (Option (List Nat) × List (Option Char))
  | some '.' :: rest =>
    match scanDigits rest with
    | ([], _) => none
    | (ds, rest) => some (some ds, rest)
  | text => some (none, text)

/-- The sign of an exponent; it may be left out. -/
def scanExponentSign : List (Option Char) → Bool × List (Option Char)
  | some '-' :: rest => (true, rest)
  | some '+' :: rest => (false, rest)
  | text => (false, text)

/-- An exponent mark, a sign and at least one digit, if there is a mark. -/
def scanExponent :
    List (Option Char) → Option (Option (Bool × List Nat) × List (Option Char))
  | some c :: rest =>
    if c = 'e' ∨ c = 'E' then
      let (negative, rest) := scanExponentSign rest
      match scanDigits rest with
      | ([], _) => none
      | (ds, rest) => some (some (negative, ds), rest)
    else some (none, some c :: rest)
  | text => some (none, text)

/-- A number without its sign. -/
def scanNumber (negative : Bool) (text : List (Option Char)) :
    Option (Numeral × List (Option Char)) := do
  let (whole, text) ← scanWhole text
  let (fraction, text) ← scanFraction text
  let (exponent, text) ← scanExponent text
  return (⟨negative, whole, fraction, exponent⟩, text)

/-! ## Tokens -/

/-- The white space between tokens. -/
def isSpace (c : Char) : Bool := c = ' ' || c = '\n' || c = '\t' || c = '\r'

/-- The rest of the text after a word. -/
def dropWord : List Char → List (Option Char) → Option (List (Option Char))
  | [], text => some text
  | c :: cs, some d :: text => if c = d then dropWord cs text else none
  | _ :: _, _ => none

/-- The token at the start of a text that does not start with white space. -/
def Token.next? : List (Option Char) → Option (Token × List (Option Char))
  | some '[' :: rest => some (.openArray, rest)
  | some ']' :: rest => some (.closeArray, rest)
  | some '\x7b' :: rest => some (.openTable, rest)
  | some '\x7d' :: rest => some (.closeTable, rest)
  | some ',' :: rest => some (.comma, rest)
  | some ':' :: rest => some (.colon, rest)
  | some 'n' :: rest => (dropWord ['u', 'l', 'l'] rest).map (.null, ·)
  | some 't' :: rest => (dropWord ['r', 'u', 'e'] rest).map (.bool true, ·)
  | some 'f' :: rest => (dropWord ['a', 'l', 's', 'e'] rest).map (.bool false, ·)
  | some '"' :: rest => do
    let (pieces, rest) ← scanString rest
    return (.string ((assemble pieces).map String.ofList), rest)
  | some '-' :: rest => do
    let (numeral, rest) ← scanNumber true rest
    return (.number numeral.value?, rest)
  | text => do
    let (numeral, rest) ← scanNumber false text
    return (.number numeral.value?, rest)

/-- The tokens of a text; each step uses up at least one character. -/
def Token.scanFor : Nat → List (Option Char) → List Token
  | 0, _ => []
  | _ + 1, [] => []
  | _ + 1, none :: _ => [.broken]
  | steps + 1, some c :: rest =>
    if isSpace c then scanFor steps rest
    else
      match next? (some c :: rest) with
      | some (token, rest) => token :: scanFor steps rest
      | none => [.broken]

/-- The tokens of a text. -/
def Token.scan (text : List (Option Char)) : List Token := scanFor text.length text

end TestSelection.Json
