import TestSelection.Regex.Error
import TestSelection.Regex.Pattern
import TestSelection.Text.Blank

/-!
# Reading the small parts of a pattern

Each function here reads one construct at the start of a text and gives back the text after it.
When white space is ignored, most places inside a construct may hold white space and comments,
which run from `#` to the end of the line.
-/

namespace TestSelection.Regex

/-! ## White space -/

/-- Drop white space and comments; the flag says whether the text starts inside a comment. -/
def dropComments : Bool → List Char → List Char
  | _, [] => []
  | true, c :: cs => dropComments (c != '\n') cs
  | false, c :: cs =>
    if Text.isBlank c then dropComments false cs
    else if c = '#' then dropComments true cs
    else c :: cs

/-- Drop what is ignored. -/
def skip (ignoreSpace : Bool) (text : List Char) : List Char :=
  if ignoreSpace then dropComments false text else text

/-- Drop the first character and what is ignored after it. -/
def advance (ignoreSpace : Bool) (text : List Char) : List Char := skip ignoreSpace (text.drop 1)

/-- The text from the first character on that is not white space, where the first `#` is passed
over as well. -/
def dropSpaceOnce : Bool → List Char → List Char
  | _, [] => []
  | marked, c :: cs =>
    if Text.isBlank c then dropSpaceOnce marked cs
    else if c = '#' ∧ !marked then dropSpaceOnce true cs
    else c :: cs

/-- The next character after the first one, as far as a hyphen in a class looks ahead. -/
def lookAhead? (ignoreSpace : Bool) (text : List Char) : Option Char :=
  let rest := text.drop 1
  if ignoreSpace then (dropSpaceOnce false rest).head?.or rest.head? else rest.head?

/-! ## Numbers -/

/-- Digits, with what is ignored after each. -/
def takeDigits (ignoreSpace : Bool) : Nat → List Char → List Char × List Char
  | 0, text => ([], text)
  | _ + 1, [] => ([], [])
  | steps + 1, c :: cs =>
    if '0' ≤ c ∧ c ≤ '9' then
      let (digits, rest) := takeDigits ignoreSpace steps (skip ignoreSpace cs)
      (c :: digits, rest)
    else ([], c :: cs)

/-- Drop white space and, when it is ignored, what else is ignored after each blank. -/
def dropBlanks (ignoreSpace : Bool) : Nat → List Char → List Char
  | 0, text => text
  | _ + 1, [] => []
  | steps + 1, c :: cs =>
    if Text.isBlank c then dropBlanks ignoreSpace steps (skip ignoreSpace cs) else c :: cs

/-- A decimal number of 32 bits, and the text after it. -/
def readDecimal (ignoreSpace : Bool) (text : List Char) : Except Reason Nat × List Char :=
  let (digits, rest) := takeDigits ignoreSpace text.length (text.dropWhile Text.isBlank)
  let rest := dropBlanks ignoreSpace rest.length rest
  let value := digits.foldl (fun n c => 10 * n + (c.toNat - '0'.toNat)) 0
  (if digits.isEmpty then .error .decimalEmpty
    else if UInt32.size ≤ value then .error .decimalRange
    else .ok value, rest)

/-- The value of a hexadecimal digit. -/
def hexValue? (c : Char) : Option Nat :=
  if '0' ≤ c ∧ c ≤ '9' then some (c.toNat - '0'.toNat)
  else if 'a' ≤ c ∧ c ≤ 'f' then some (c.toNat - 'a'.toNat + 10)
  else if 'A' ≤ c ∧ c ≤ 'F' then some (c.toNat - 'A'.toNat + 10)
  else none

/-- The character with a number, given by its digits. -/
def scalar (digits : List Nat) : Except Reason Char :=
  let value := digits.foldl (fun n d => 16 * n + d) 0
  if value < 0xD800 ∨ (0xDFFF < value ∧ value < 0x110000) then .ok (Char.ofNat value)
  else .error .hexScalar

/-- Exactly so many hexadecimal digits; the text starts with the first. -/
def readHexDigits (ignoreSpace : Bool) : Nat → List Char → Except Reason (List Nat × List Char)
  | 0, text => .ok ([], text)
  | _ + 1, [] => .error .escapeCutOff
  | count + 1, c :: cs =>
    match hexValue? c with
    | none => .error .hexDigit
    | some d => do
      let (ds, rest) ← readHexDigits ignoreSpace count (skip ignoreSpace cs)
      return (d :: ds, rest)

/-- Hexadecimal digits up to a closing brace. -/
def readHexBraced (ignoreSpace : Bool) : Nat → List Char → Except Reason (List Nat × List Char)
  | 0, _ => .error .escapeCutOff
  | _ + 1, [] => .error .escapeCutOff
  | steps + 1, c :: cs =>
    if c = '\x7d' then .ok ([], skip ignoreSpace cs)
    else
      match hexValue? c with
      | none => .error .hexDigit
      | some d => do
        let (ds, rest) ← readHexBraced ignoreSpace steps (skip ignoreSpace cs)
        return (d :: ds, rest)

/-- A character by its number, after `x`, `u` or `U`. -/
def readHex (ignoreSpace : Bool) (letter : Char) (text : List Char) :
    Except Reason (Literal × List Char) :=
  match skip ignoreSpace text with
  | [] => .error .escapeCutOff
  | '\x7b' :: cs => do
    let (digits, rest) ← readHexBraced ignoreSpace cs.length.succ (skip ignoreSpace cs)
    if digits.isEmpty then .error .hexEmpty
    else return (⟨← scalar digits, false⟩, rest)
  | text => do
    let count := if letter = 'x' then 2 else if letter = 'u' then 4 else 8
    let (digits, rest) ← readHexDigits ignoreSpace count text
    return (⟨← scalar digits, letter = 'x'⟩, rest)

/-! ## Properties -/

/-- The characters up to a closing brace, without what is ignored between them. -/
def readBraced (ignoreSpace : Bool) : Nat → List Char → Except Reason (List Char × List Char)
  | 0, _ => .error .escapeCutOff
  | _ + 1, [] => .error .escapeCutOff
  | steps + 1, c :: cs =>
    if c = '\x7d' then .ok ([], cs)
    else do
      let (name, rest) ← readBraced ignoreSpace steps (skip ignoreSpace cs)
      return (c :: name, rest)

/-- The parts before and after the first occurrence of a separator. -/
def splitOnce (separator : List Char) : List Char → Option (List Char × List Char)
  | [] => none
  | c :: cs =>
    if separator.isPrefixOf (c :: cs) then some ([], (c :: cs).drop separator.length)
    else (splitOnce separator cs).map fun (left, right) => (c :: left, right)

/-- The name between the braces, and whether it is turned around by `!=`. -/
def propertyOfName (name : List Char) : PropertyName × Bool :=
  match splitOnce ['!', '='] name with
  | some (p, v) => (.value (String.ofList p) (String.ofList v), true)
  | none =>
    match (splitOnce [':'] name).or (splitOnce ['='] name) with
    | some (p, v) => (.value (String.ofList p) (String.ofList v), false)
    | none => (.bare (String.ofList name), false)

/-- A property and whether it is negated, after `p` or `P`. -/
def readProperty (ignoreSpace : Bool) (letter : Char) (text : List Char) :
    Except Reason ((PropertyName × Bool) × List Char) :=
  let negated := letter = 'P'
  match skip ignoreSpace text with
  | [] => .error .escapeCutOff
  | '\x7b' :: cs => do
    let (name, rest) ← readBraced ignoreSpace cs.length.succ (skip ignoreSpace cs)
    let (name, turned) := propertyOfName name
    return ((name, negated != turned), rest)
  | '\\' :: _ => .error .classPropertyName
  | c :: cs => .ok ((.bare c.toString, negated), cs)

/-! ## Escapes -/

/-- What an escape or a single character can stand for. -/
inductive Primitive where
  | literal (l : Literal)
  | assertion (a : Assertion)
  | dot
  | perl (kind : PerlClass) (negated : Bool)
  | property (name : PropertyName) (negated : Bool)

/-- The characters with a meaning of their own. -/
def isMeta (c : Char) : Bool :=
  ['\\', '.', '+', '*', '?', '(', ')', '|', '[', ']', '\x7b', '\x7d', '^', '$', '#', '&', '-',
    '~'].contains c

/-- Whether a backslash makes a character stand for itself. Letters, digits and angle brackets are
kept for other uses. -/
def isEscapable (c : Char) : Bool :=
  isMeta c || (c.toNat < 0x80 && !c.isAlphanum && c != '<' && c != '>')

/-- The control characters with a letter of their own. -/
def control? (c : Char) : Option Char :=
  if c = 'a' then some '\x07'
  else if c = 'f' then some '\x0c'
  else if c = 't' then some '\t'
  else if c = 'n' then some '\n'
  else if c = 'r' then some '\r'
  else if c = 'v' then some '\x0b'
  else none

/-- The classes of one letter; a capital negates. -/
def perl? (c : Char) : Option (PerlClass × Bool) :=
  if c = 'd' then some (.digit, false)
  else if c = 's' then some (.space, false)
  else if c = 'w' then some (.word, false)
  else if c = 'D' then some (.digit, true)
  else if c = 'S' then some (.space, true)
  else if c = 'W' then some (.word, true)
  else none

/-- The assertions of one letter, except for the word boundary. -/
def assertion? (c : Char) : Option Assertion :=
  if c = 'A' then some .textStart
  else if c = 'z' then some .textEnd
  else if c = 'B' then some .notWordBoundary
  else if c = '<' then some .wordStart
  else if c = '>' then some .wordEnd
  else none

/-- Whether a character can stand in the name of a word boundary. -/
def isBoundaryChar (c : Char) : Bool := c.isAlpha || c = '-'

/-- The name of a word boundary, without what is ignored between its characters. -/
def takeBoundaryName (ignoreSpace : Bool) : Nat → List Char → List Char × List Char
  | 0, text => ([], text)
  | _ + 1, [] => ([], [])
  | steps + 1, c :: cs =>
    if isBoundaryChar c then
      let (name, rest) := takeBoundaryName ignoreSpace steps (skip ignoreSpace cs)
      (c :: name, rest)
    else ([], c :: cs)

/-- The kinds of word boundary by name. -/
def boundary? (name : List Char) : Option Assertion :=
  if name = "start".toList then some .wordStart
  else if name = "end".toList then some .wordEnd
  else if name = "start-half".toList then some .wordStartHalf
  else if name = "end-half".toList then some .wordEndHalf
  else none

/-- What follows `\b`. A brace starts a name unless what stands after it cannot be in one; then it
is left for a repetition. -/
def readBoundary (ignoreSpace : Bool) (text : List Char) : Except Reason (Assertion × List Char) :=
  match text with
  | '\x7b' :: cs =>
    match skip ignoreSpace cs with
    | [] => .error .wordBoundaryCutOff
    | c :: cs =>
      if isBoundaryChar c then
        match takeBoundaryName ignoreSpace (c :: cs).length (c :: cs) with
        | (name, '\x7d' :: rest) =>
          match boundary? name with
          | some a => .ok (a, rest)
          | none => .error .wordBoundaryUnknown
        | _ => .error .wordBoundaryUnclosed
      else .ok (.wordBoundary, text)
  | _ => .ok (.wordBoundary, text)

/-- What follows a backslash. -/
def readEscape (ignoreSpace : Bool) : List Char → Except Reason (Primitive × List Char)
  | [] => .error .escapeCutOff
  | c :: rest =>
    if c.isDigit then .error .backreference
    else if c = 'x' ∨ c = 'u' ∨ c = 'U' then do
      let (l, rest) ← readHex ignoreSpace c rest
      return (.literal l, rest)
    else if c = 'p' ∨ c = 'P' then do
      let ((name, negated), rest) ← readProperty ignoreSpace c rest
      return (.property name negated, rest)
    else if c = 'b' then do
      let (a, rest) ← readBoundary ignoreSpace rest
      return (.assertion a, rest)
    else if isEscapable c then .ok (.literal ⟨c, false⟩, rest)
    else
      match perl? c, control? c, assertion? c with
      | some (kind, negated), _, _ => .ok (.perl kind negated, rest)
      | _, some l, _ => .ok (.literal ⟨l, false⟩, rest)
      | _, _, some a => .ok (.assertion a, rest)
      | _, _, _ => .error .escapeUnknown

/-- A primitive as a pattern of its own. -/
def Primitive.toPattern : Primitive → Pattern
  | .literal l => .literal l
  | .assertion a => .assertion a
  | .dot => .dot
  | .perl kind negated => .perl kind negated
  | .property name negated => .property name negated

/-- A single character outside of a class, or what a backslash starts. -/
def readPrimitive (ignoreSpace : Bool) : List Char → Except Reason (Primitive × List Char)
  | [] => .error .escapeCutOff
  | '\\' :: rest => readEscape ignoreSpace rest
  | '.' :: rest => .ok (.dot, rest)
  | '^' :: rest => .ok (.assertion .lineStart, rest)
  | '$' :: rest => .ok (.assertion .lineEnd, rest)
  | c :: rest => .ok (.literal ⟨c, false⟩, rest)

end TestSelection.Regex
