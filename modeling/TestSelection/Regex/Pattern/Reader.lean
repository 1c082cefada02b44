import TestSelection.Regex.Pattern.Class
import TestSelection.Unicode.Property

/-!
# Reading patterns

`Pattern.read` turns a text into a pattern or says why it is none. The text is read once, from left
to right, and the first fault wins. The groups that are still open are kept in a list, innermost
first. A pattern that is well formed and nested too deeply is refused at the end.
-/

namespace TestSelection.Regex

/-! ## Groups -/

/-- A group that is not closed, with what was read around it. -/
structure GroupFrame where
  /-- The parts before the group, last first. -/
  parts : List Pattern
  /-- The finished branches of the alternation around the group, last first. -/
  branches : List Pattern
  kind : GroupKind
  /-- Whether white space was ignored around the group. -/
  ignoreSpace : Bool

/-- What was read so far. -/
structure Progress where
  /-- The parts of the branch in hand, last first. -/
  parts : List Pattern
  /-- The finished branches at this level, last first. -/
  branches : List Pattern
  frames : List GroupFrame
  ignoreSpace : Bool
  captures : Nat
  names : List String

/-- Nothing was read so far. -/
def Progress.start : Progress := ⟨[], [], [], false, 0, []⟩

/-- Parts, last first, as one pattern. -/
def Pattern.ofParts : List Pattern → Pattern
  | [] => .empty
  | [p] => p
  | parts => .concat parts.reverse

/-- The pattern of the level in hand. -/
def Progress.level (p : Progress) : Pattern :=
  match p.branches with
  | [] => .ofParts p.parts
  | branches => .alternation (branches.reverse ++ [.ofParts p.parts])

/-- Add a part. -/
def Progress.push (p : Progress) (part : Pattern) : Progress := { p with parts := part :: p.parts }

/-- Whether a character can be part of a group's name. -/
def isNameChar (first : Bool) (c : Char) : Bool :=
  let isLetter := Unicode.Property.alphabetic.mem c.toNat
  if first then c = '_' || isLetter
  else c = '_' || c = '.' || c = '[' || c = ']' || isLetter ||
    (Unicode.Property.category ["Nd", "Nl", "No"]).mem c.toNat

/-- A name up to the closing angle bracket. -/
def readNameFrom (first : Bool) : List Char → Except Reason (List Char × List Char)
  | [] => .error .groupNameUnclosed
  | '>' :: rest => .ok ([], rest)
  | c :: rest =>
    if isNameChar first c then do
      let (name, rest) ← readNameFrom false rest
      return (c :: name, rest)
    else .error .groupNameChar

/-- The flag of a letter. -/
def flag? (c : Char) : Option Flag :=
  if c = 'i' then some .ignoreCase
  else if c = 'm' then some .multiLine
  else if c = 's' then some .dotMatchesNewLine
  else if c = 'U' then some .swapGreed
  else if c = 'u' then some .unicode
  else if c = 'R' then some .crlf
  else if c = 'x' then some .ignoreSpace
  else none

/-- Flags up to a colon or a closing bracket, after the given ones, last first. -/
def readFlagsFrom (items : List FlagItem) : List Char → Except Reason (List FlagItem × List Char)
  | [] => .error .flagCutOff
  | c :: rest =>
    if c = ':' ∨ c = ')' then
      if items.head? = some .negation then .error .flagNegationDangling
      else .ok (items.reverse, c :: rest)
    else if c = '-' then
      if items.contains .negation then .error .flagNegationTwice
      else readFlagsFrom (.negation :: items) rest
    else
      match flag? c with
      | none => .error .flagUnknown
      | some f =>
        if items.contains (.flag f) then .error .flagDuplicate
        else readFlagsFrom (.flag f :: items) rest

/-- Enter a group. -/
def Progress.enter (p : Progress) (kind : GroupKind) : Progress :=
  let flags := match kind with
    | .flags items => items
    | .capture _ _ => []
  { p with
    parts := []
    branches := []
    frames := ⟨p.parts, p.branches, kind, p.ignoreSpace⟩ :: p.frames
    ignoreSpace := (FlagItem.state? .ignoreSpace flags).getD p.ignoreSpace }

/-- What follows an opening bracket. -/
def readOpenGroup (p : Progress) (text : List Char) : Except Reason (Progress × List Char) :=
  let captured (text : List Char) : Except Reason (Progress × List Char) := do
    let (name, rest) ← readNameFrom true text
    if name.isEmpty then .error .groupNameEmpty
    else if p.names.contains (String.ofList name) then .error .groupNameDuplicate
    else
      let name := String.ofList name
      let p := { p with captures := p.captures + 1, names := name :: p.names }
      return (p.enter (.capture p.captures (some name)), rest)
  match skip p.ignoreSpace text with
  | '?' :: '=' :: _ => .error .lookAround
  | '?' :: '!' :: _ => .error .lookAround
  | '?' :: '<' :: '=' :: _ => .error .lookAround
  | '?' :: '<' :: '!' :: _ => .error .lookAround
  | '?' :: 'P' :: '<' :: rest => captured rest
  | '?' :: '<' :: rest => captured rest
  | ['?'] => .error .groupUnclosed
  | '?' :: rest => do
    let (items, rest) ← readFlagsFrom [] rest
    if rest.head? = some ')' then
      if items.isEmpty then .error .repetitionMissing
      else
        let state := (FlagItem.state? .ignoreSpace items).getD p.ignoreSpace
        return ({ p with ignoreSpace := state }.push (.flags items), rest.drop 1)
    else return (p.enter (.flags items), rest.drop 1)
  | rest =>
    let p := { p with captures := p.captures + 1 }
    .ok (p.enter (.capture p.captures none), rest)

/-- Leave the innermost group. -/
def Progress.leave (p : Progress) : Except Reason Progress :=
  match p.frames with
  | [] => .error .groupUnopened
  | frame :: frames =>
    .ok { p with
      parts := .group frame.kind p.level :: frame.parts
      branches := frame.branches
      frames := frames
      ignoreSpace := frame.ignoreSpace }

/-! ## Repetitions -/

/-- Repeat the last part. Nothing, and a place where flags were set, cannot be repeated. -/
def Progress.takeOperand (p : Progress) : Except Reason (Pattern × Progress) :=
  match p.parts with
  | [] => .error .repetitionMissing
  | .empty :: _ => .error .repetitionMissing
  | .flags _ :: _ => .error .repetitionMissing
  | part :: parts => .ok (part, { p with parts := parts })

/-- Whether a question mark follows, which makes a repetition prefer few. -/
def readGreed : List Char → Bool × List Char
  | '?' :: rest => (false, rest)
  | rest => (true, rest)

/-- A repetition of one character. -/
def readRepetition (p : Progress) (least : Nat) (greatest : Option Nat) (rest : List Char) :
    Except Reason (Progress × List Char) := do
  let (part, p) ← p.takeOperand
  let (greedy, rest) := readGreed rest
  return (p.push (.repetition least greatest greedy part), rest)

/-- A missing count is reported as such. -/
def repetitionCount (count : Except Reason Nat) : Except Reason Nat :=
  match count with
  | .error .decimalEmpty => .error .repetitionCount
  | count => count

/-- The counts of a repetition, after the opening brace, and the text at the closing brace. -/
def readCounts (ignoreSpace : Bool) (text : List Char) :
    Except Reason (Nat × Option Nat × List Char) := do
  let (least, rest) := readDecimal ignoreSpace text
  let least := repetitionCount least
  match rest with
  | [] => .error .repetitionUnclosed
  | ',' :: cs =>
    match skip ignoreSpace cs with
    | [] => .error .repetitionUnclosed
    | '\x7d' :: cs => return (← least, none, '\x7d' :: cs)
    | rest =>
      let least ← least
      let (greatest, rest) := readDecimal ignoreSpace rest
      return (least, some (← repetitionCount greatest), rest)
  | rest =>
    let least ← least
    return (least, some least, rest)

/-- A repetition with counts, after its opening brace. -/
def readCounted (p : Progress) (text : List Char) : Except Reason (Progress × List Char) := do
  let (part, p) ← p.takeOperand
  let text := skip p.ignoreSpace text
  if text.isEmpty then .error .repetitionUnclosed
  else
    let (least, greatest, rest) ← readCounts p.ignoreSpace text
    match rest with
    | '\x7d' :: cs =>
      let (greedy, rest) := readGreed (skip p.ignoreSpace cs)
      if greatest.all (least ≤ ·) then
        return (p.push (.repetition least greatest greedy part), rest)
      else .error .repetitionOrder
    | _ => .error .repetitionUnclosed

/-! ## Patterns -/

/-- Read one construct. -/
def readStep (p : Progress) : List Char → Except Reason (Progress × List Char)
  | [] => .ok (p, [])
  | '(' :: rest => readOpenGroup p rest
  | ')' :: rest => do return (← p.leave, rest)
  | '|' :: rest => .ok ({ p with branches := .ofParts p.parts :: p.branches, parts := [] }, rest)
  | '[' :: rest => do
    let (part, rest) ← readClass p.ignoreSpace rest
    return (p.push part, rest)
  | '?' :: rest => readRepetition p 0 (some 1) rest
  | '*' :: rest => readRepetition p 0 none rest
  | '+' :: rest => readRepetition p 1 none rest
  | '\x7b' :: rest => readCounted p rest
  | text => do
    let (part, rest) ← readPrimitive p.ignoreSpace text
    return (p.push part.toPattern, rest)

/-- Read constructs to the end of the text. -/
def readAll : Nat → Progress → List Char → Except Reason Progress
  | 0, p, _ => .ok p
  | steps + 1, p, text =>
    match skip p.ignoreSpace text with
    | [] => .ok p
    | text => do
      let (p, rest) ← readStep p text
      readAll steps p rest

/-- Read a whole text as a pattern. -/
def Pattern.read (text : List Char) : Except Reason Pattern := do
  let p ← readAll text.length.succ .start text
  if p.frames.isEmpty then
    let pattern := p.level
    if nestLimit < pattern.depth then .error .nestLimit else return pattern
  else .error .groupUnclosed

end TestSelection.Regex
