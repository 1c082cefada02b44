import TestSelection.Toml.Scalar
import TestSelection.Toml.Table
import TestSelection.Toml.Text

/-!
# TOML documents

A document is a list of sections, each with a header and one assignment a line. Arrays and tables
in braces may run over several lines, have comments, and end with a comma.

Reading a document has two steps. The text is first read into sections, which is a matter of
notation, and the sections are then put together, which is a matter of who may describe what.
-/

namespace TestSelection.Toml

/-! ## Between words -/

/-- Pass over spaces. -/
def skipSpaces (text : List Char) : List Char := text.dropWhile isSpace

/-- Pass over spaces, line breaks and comments. The flag says that a comment is open. -/
def skipBlanks : Bool → List Char → List Char
  | _, [] => []
  | _, '\n' :: rest => skipBlanks false rest
  | _, '\r' :: '\n' :: rest => skipBlanks false rest
  | true, c :: rest => if isLineChar c then skipBlanks true rest else c :: rest
  | false, c :: rest =>
    if c = '#' then skipBlanks true rest
    else if isSpace c then skipBlanks false rest
    else c :: rest

/-- Pass over a comment. -/
def skipComment : List Char → List Char
  | '#' :: rest => rest.dropWhile isLineChar
  | text => text

/-- The text after the end of a line. -/
def endLine? (text : List Char) : Option (List Char) :=
  match skipComment (skipSpaces text) with
  | [] => some []
  | rest => dropNewline? rest

/-! ## Keys -/

/-- Whether a character may stand in a key without quotes. -/
def isKeyChar (c : Char) : Bool :=
  ('a' ≤ c && c ≤ 'z') || ('A' ≤ c && c ≤ 'Z') || isDigit c || c = '_' || c = '-'

/-- A key without dots. -/
def simpleKey? : List Char → Option (List Char × List Char)
  | '"' :: rest => basicRest rest
  | '\'' :: rest => literalRest rest
  | text =>
    match text.takeWhile isKeyChar with
    | [] => none
    | cs => some (cs, text.dropWhile isKeyChar)

/-- A key with dots, and what follows the spaces after it. The first argument bounds the number
of its parts. -/
def key? : Nat → List Char → Option (List String × List Char)
  | 0, _ => none
  | parts + 1, text => do
    let (cs, rest) ← simpleKey? (skipSpaces text)
    match skipSpaces rest with
    | '.' :: rest =>
      let (keys, rest) ← key? parts rest
      return (String.ofList cs :: keys, rest)
    | rest => return ([String.ofList cs], rest)

/-! ## Values -/

/-- Whether a character ends a word. -/
def endsWord (c : Char) : Bool :=
  isSpace c || c = '\n' || c = '\r' || c = ',' || c = ']' || c = '}' || c = '#'

/-- A word. A time may follow a date after one space. -/
def word (text : List Char) : List Char × List Char :=
  let first := text.takeWhile (!endsWord ·)
  let rest := text.dropWhile (!endsWord ·)
  match date? first, rest with
  | some (_, []), ' ' :: c :: more =>
    if isDigit c then
      (first ++ ' ' :: (c :: more).takeWhile (!endsWord ·), (c :: more).dropWhile (!endsWord ·))
    else (first, rest)
  | _, _ => (first, rest)

/-- A value that is one string or one word. -/
def simpleValue? (text : List Char) : Option (Value × List Char) :=
  if text.head? = some '"' ∨ text.head? = some '\'' then do
    let (cs, rest) ← string? text
    return (.string (String.ofList cs), rest)
  else do
    let (cs, rest) := word text
    return (← scalarOf? cs, rest)

/-- The number of arrays and tables in braces that may be open at a time. -/
def depthLimit : Nat := 80

mutual

/-- A value. The first argument bounds the number of steps, the second one says how many arrays
and tables may be entered. -/
def value? : Nat → Nat → List Char → Option (Value × List Char)
  | 0, _, _ => none
  | steps + 1, room, text =>
    match text with
    | '[' :: rest =>
      if room = 0 then none
      else do
        let (vs, rest) ← items? steps (room - 1) (skipBlanks false rest)
        return (.array vs, rest)
    | '{' :: rest =>
      if room = 0 then none
      else do
        let (assignments, rest) ← braced? steps (room - 1) (skipBlanks false rest)
        return (.table (← tableOf? assignments), rest)
    | text => simpleValue? text

/-- The items of an array up to its end. -/
def items? : Nat → Nat → List Char → Option (List Value × List Char)
  | 0, _, _ => none
  | steps + 1, room, text =>
    match text with
    | ']' :: rest => some ([], rest)
    | text => do
      let (v, rest) ← value? steps room text
      match skipBlanks false rest with
      | ',' :: rest =>
        let (vs, rest) ← items? steps room (skipBlanks false rest)
        return (v :: vs, rest)
      | ']' :: rest => return ([v], rest)
      | _ => none

/-- The assignments of a table in braces up to its end. -/
def braced? : Nat → Nat → List Char → Option (List (List String × Value) × List Char)
  | 0, _, _ => none
  | steps + 1, room, text =>
    match text with
    | '}' :: rest => some ([], rest)
    | text => do
      let (a, rest) ← assignment? steps room text
      match skipBlanks false rest with
      | ',' :: rest =>
        let (as, rest) ← braced? steps room (skipBlanks false rest)
        return (a :: as, rest)
      | '}' :: rest => return ([a], rest)
      | _ => none

/-- A key and its value. -/
def assignment? : Nat → Nat → List Char → Option ((List String × Value) × List Char)
  | 0, _, _ => none
  | steps + 1, room, text => do
    match ← key? steps text with
    | (key, '=' :: rest) =>
      let (v, rest) ← value? steps room (skipSpaces rest)
      return ((key, v), rest)
    | _ => none

end

/-! ## Sections -/

/-- A line that is not blank. -/
inductive Line where
  | header (h : Header)
  | assignment (key : List String) (v : Value)

/-- The header that a line holds. The first argument bounds the number of steps. -/
def header? (steps : Nat) : List Char → Option (Header × List Char)
  | '[' :: '[' :: rest => do
    match ← key? steps rest with
    | (path, ']' :: ']' :: rest) => return (.tables path, rest)
    | _ => none
  | '[' :: rest => do
    match ← key? steps rest with
    | (path, ']' :: rest) => return (.table path, rest)
    | _ => none
  | _ => none

/-- A line, up to its end. -/
def line? (steps : Nat) (text : List Char) : Option (Line × List Char) :=
  if text.head? = some '[' then do
    let (h, rest) ← header? steps text
    return (.header h, ← endLine? rest)
  else do
    let ((key, v), rest) ← assignment? steps depthLimit text
    return (.assignment key v, ← endLine? rest)

/-- The lines of a text. The second argument bounds their number. -/
def lines? (steps : Nat) : Nat → List Char → Option (List Line)
  | 0, _ => none
  | most + 1, text =>
    match skipBlanks false text with
    | [] => some []
    | text => do
      let (l, rest) ← line? steps text
      return l :: (← lines? steps most rest)

/-- Put lines together to sections; the first one has no header. -/
def sectionsOf : List Line → Section × List Section
  | [] => (⟨.top, []⟩, [])
  | .assignment key v :: lines =>
    let (s, rest) := sectionsOf lines
    ({ s with assignments := (key, v) :: s.assignments }, rest)
  | .header h :: lines =>
    let (s, rest) := sectionsOf lines
    (⟨.top, []⟩, { s with header := h } :: rest)

/-- Pass over a byte order mark. -/
def skipMark : List Char → List Char
  | '\ufeff' :: rest => rest
  | text => text

/-- The table that a text describes. -/
def ofString? (text : String) : Option (List (String × Value)) := do
  let chars := skipMark text.toList
  let size := chars.length + 1
  let lines ← lines? (3 * size) size chars
  let (top, rest) := sectionsOf lines
  documentOf? (top :: rest)

end TestSelection.Toml
