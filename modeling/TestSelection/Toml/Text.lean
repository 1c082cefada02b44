import TestSelection.Text.Hex

/-!
# Strings in TOML

Strings between double quotes have escapes, strings between single quotes have none. Tripled quotes
make a string that may run over several lines. A line break right after the opening quotes is not
part of it, and with double quotes a backslash at the end of a line joins the line with the next
text.

All functions return the text that is left over.
-/

namespace TestSelection.Toml

/-- Whether a character may stand in a line of text: a tab, or anything that is no control. -/
def isLineChar (c : Char) : Bool := c = '\t' || (0x20 ≤ c.toNat && c.toNat ≠ 0x7F)

/-- Whether a character is a space between words of a line. -/
def isSpace (c : Char) : Bool := c = ' ' || c = '\t'

/-- The text after a line break. -/
def dropNewline? : List Char → Option (List Char)
  | '\n' :: rest => some rest
  | '\r' :: '\n' :: rest => some rest
  | _ => none

/-- The character of a number, if there is one. -/
def scalar? (n : Nat) : Option Char :=
  if n < 0xD800 ∨ (0xDFFF < n ∧ n ≤ 0x10FFFF) then some (Char.ofNat n) else none

/-- The character that a backslash and a letter stand for. -/
def unescape? (c : Char) : Option Char :=
  if c = '"' ∨ c = '\\' then some c
  else if c = 'b' then some '\x08'
  else if c = 'e' then some '\x1b'
  else if c = 'f' then some '\x0c'
  else if c = 'n' then some '\n'
  else if c = 'r' then some '\r'
  else if c = 't' then some '\t'
  else none

/-- The character that hexadecimal digits name. -/
def named? (digits : List Char) : Option Char := do scalar? (← Text.hexNumber? digits)

/-! ## One line -/

/-- The rest of a string between double quotes. -/
def basicRest : List Char → Option (List Char × List Char)
  | [] => none
  | '"' :: rest => some ([], rest)
  | '\\' :: 'x' :: a :: b :: rest => do
    let c ← named? [a, b]
    let (cs, rest) ← basicRest rest
    return (c :: cs, rest)
  | '\\' :: 'u' :: a :: b :: c :: d :: rest => do
    let c ← named? [a, b, c, d]
    let (cs, rest) ← basicRest rest
    return (c :: cs, rest)
  | '\\' :: 'U' :: a :: b :: c :: d :: e :: f :: g :: h :: rest => do
    let c ← named? [a, b, c, d, e, f, g, h]
    let (cs, rest) ← basicRest rest
    return (c :: cs, rest)
  | '\\' :: c :: rest => do
    let c ← unescape? c
    let (cs, rest) ← basicRest rest
    return (c :: cs, rest)
  | c :: rest =>
    if isLineChar c then do
      let (cs, rest) ← basicRest rest
      return (c :: cs, rest)
    else none

/-- The rest of a string between single quotes. -/
def literalRest : List Char → Option (List Char × List Char)
  | [] => none
  | '\'' :: rest => some ([], rest)
  | c :: rest =>
    if isLineChar c then do
      let (cs, rest) ← literalRest rest
      return (c :: cs, rest)
    else none

/-! ## Several lines -/

/-- Whether only spaces stand before the end of the line. -/
def endsLine (text : List Char) : Bool := (dropNewline? (text.dropWhile isSpace)).isSome

/-- The rest of a string between tripled double quotes. Up to two quotes may stand before the
closing ones. The flag says that white space is passed over. -/
def basicLines : Bool → List Char → Option (List Char × List Char)
  | _, [] => none
  | _, '"' :: '"' :: '"' :: '"' :: '"' :: rest => some (['"', '"'], rest)
  | _, '"' :: '"' :: '"' :: '"' :: rest => some (['"'], rest)
  | _, '"' :: '"' :: '"' :: rest => some ([], rest)
  | skipping, '\r' :: '\n' :: rest => do
    let (cs, rest) ← basicLines skipping rest
    return (if skipping then cs else '\r' :: '\n' :: cs, rest)
  | skipping, '\n' :: rest => do
    let (cs, rest) ← basicLines skipping rest
    return (if skipping then cs else '\n' :: cs, rest)
  | _, '\\' :: 'x' :: a :: b :: rest => do
    let c ← named? [a, b]
    let (cs, rest) ← basicLines false rest
    return (c :: cs, rest)
  | _, '\\' :: 'u' :: a :: b :: c :: d :: rest => do
    let c ← named? [a, b, c, d]
    let (cs, rest) ← basicLines false rest
    return (c :: cs, rest)
  | _, '\\' :: 'U' :: a :: b :: c :: d :: e :: f :: g :: h :: rest => do
    let c ← named? [a, b, c, d, e, f, g, h]
    let (cs, rest) ← basicLines false rest
    return (c :: cs, rest)
  | _, '\\' :: c :: rest =>
    if endsLine (c :: rest) then basicLines true (c :: rest)
    else do
      let c ← unescape? c
      let (cs, rest) ← basicLines false rest
      return (c :: cs, rest)
  | skipping, c :: rest =>
    if skipping && isSpace c then basicLines true rest
    else if isLineChar c then do
      let (cs, rest) ← basicLines false rest
      return (c :: cs, rest)
    else none

/-- The rest of a string between tripled single quotes. -/
def literalLines : List Char → Option (List Char × List Char)
  | [] => none
  | '\'' :: '\'' :: '\'' :: '\'' :: '\'' :: rest => some (['\'', '\''], rest)
  | '\'' :: '\'' :: '\'' :: '\'' :: rest => some (['\''], rest)
  | '\'' :: '\'' :: '\'' :: rest => some ([], rest)
  | '\r' :: '\n' :: rest => do
    let (cs, rest) ← literalLines rest
    return ('\r' :: '\n' :: cs, rest)
  | '\n' :: rest => do
    let (cs, rest) ← literalLines rest
    return ('\n' :: cs, rest)
  | c :: rest =>
    if isLineChar c then do
      let (cs, rest) ← literalLines rest
      return (c :: cs, rest)
    else none

/-- The text after a line break, or the text itself if there is none. -/
def skipNewline (text : List Char) : List Char := (dropNewline? text).getD text

/-- A string of any kind. -/
def string? : List Char → Option (List Char × List Char)
  | '"' :: '"' :: '"' :: rest => basicLines false (skipNewline rest)
  | '\'' :: '\'' :: '\'' :: rest => literalLines (skipNewline rest)
  | '"' :: rest => basicRest rest
  | '\'' :: rest => literalRest rest
  | _ => none

end TestSelection.Toml
