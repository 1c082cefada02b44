import TestSelection.Regex.Pattern.Escape

/-!
# Reading bracketed classes

A class holds characters, ranges, classes of other kinds and further bracketed classes, side by
side, and such groups may be joined by `&&`, `--` and `~~`, all of one strength and from left to
right. The classes that are still open while a text is read are kept in a list, innermost first.
-/

namespace TestSelection.Regex

/-! ## Parts -/

/-- A primitive as a part of a class. -/
def Primitive.toItem : Primitive → Except Reason ClassItem
  | .literal l => .ok (.literal l)
  | .perl kind negated => .ok (.perl kind negated)
  | .property name negated => .ok (.property name negated)
  | .assertion _ => .error .classEscape
  | .dot => .error .classEscape

/-- A primitive as a boundary of a range. -/
def Primitive.toBoundary : Primitive → Except Reason Literal
  | .literal l => .ok l
  | _ => .error .classRangeBoundary

/-- A character of a class; only the backslash has a meaning of its own. -/
def readMember (ignoreSpace : Bool) : List Char → Except Reason (Primitive × List Char)
  | [] => .error .classUnclosed
  | '\\' :: rest => readEscape ignoreSpace rest
  | c :: rest => .ok (.literal ⟨c, false⟩, rest)

/-- A character of a class, or a range. A hyphen before a closing bracket or another hyphen makes
no range. -/
def readRange (ignoreSpace : Bool) (text : List Char) : Except Reason (ClassItem × List Char) := do
  let (first, rest) ← readMember ignoreSpace text
  let rest := skip ignoreSpace rest
  match rest with
  | [] => .error .classUnclosed
  | c :: _ =>
    let next := lookAhead? ignoreSpace rest
    if c != '-' || next == some ']' || next == some '-' then
      return (← first.toItem, rest)
    else
      let rest := advance ignoreSpace rest
      if rest.isEmpty then .error .classUnclosed
      else
        let (last, rest) ← readMember ignoreSpace rest
        let first ← first.toBoundary
        let last ← last.toBoundary
        if first.char ≤ last.char then return (.range first last, rest)
        else .error .classRangeOrder

/-- The classes with a name between colons, by name. -/
def asciiClasses : List (String × AsciiClass) :=
  [("alnum", .alnum), ("alpha", .alpha), ("ascii", .ascii), ("blank", .blank), ("cntrl", .cntrl),
   ("digit", .digit), ("graph", .graph), ("lower", .lower), ("print", .print), ("punct", .punct),
   ("space", .space), ("upper", .upper), ("word", .word), ("xdigit", .xdigit)]

/-- A class with a name between colons, after its opening bracket. Anything that is not such a
class is left to be read as a bracketed class. -/
def asciiClass? : List Char → Option (ClassItem × List Char)
  | ':' :: text =>
    let negated := text.head? == some '^'
    let text := if negated then text.drop 1 else text
    match text.dropWhile (· != ':') with
    | ':' :: ']' :: rest =>
      (asciiClasses.lookup (String.ofList (text.takeWhile (· != ':')))).map fun kind =>
        (.ascii kind negated, rest)
    | _ => none
  | _ => none

/-! ## Nesting -/

/-- A class that is not finished: one whose bracket is open, with the parts read before it in the
class around it, or the left side of an operator. -/
inductive ClassFrame where
  | opened (around : List ClassItem) (negated : Bool)
  | operator (kind : ClassOp) (left : ClassSet)

/-- Parts, last first, as one part. -/
def ClassItem.ofReversed : List ClassItem → ClassItem
  | [] => .empty
  | [i] => i
  | items => .union items.reverse

/-- Finish the operator that waits for its right side, if there is one. -/
def finishOperator (right : ClassSet) : List ClassFrame → ClassSet × List ClassFrame
  | .operator kind left :: frames => (.op kind left right, frames)
  | frames => (right, frames)

/-- Read hyphens at the start of a class, which stand for themselves. -/
def takeHyphens (ignoreSpace : Bool) : Nat → List Char → List ClassItem × List Char
  | 0, text => ([], text)
  | steps + 1, '-' :: cs =>
    let (items, rest) := takeHyphens ignoreSpace steps (skip ignoreSpace cs)
    (.literal ⟨'-', false⟩ :: items, rest)
  | _ + 1, text => ([], text)

/-- What follows an opening bracket: a negation, hyphens, or a closing bracket that stands for
itself. -/
def readOpening (ignoreSpace : Bool) (text : List Char) :
    Except Reason (Bool × List ClassItem × List Char) :=
  let text := skip ignoreSpace text
  let negated := text.head? == some '^'
  let text := if negated then advance ignoreSpace text else text
  let (hyphens, text) := takeHyphens ignoreSpace text.length text
  match hyphens, text with
  | _, [] => .error .classUnclosed
  | [], ']' :: cs =>
    let rest := skip ignoreSpace cs
    if rest.isEmpty then .error .classUnclosed
    else .ok (negated, [.literal ⟨']', false⟩], rest)
  | hyphens, text => .ok (negated, hyphens, text)

/-- The operator that a text starts with. -/
def classOp? : List Char → Option (ClassOp × List Char)
  | '&' :: '&' :: rest => some (.intersection, rest)
  | '-' :: '-' :: rest => some (.difference, rest)
  | '~' :: '~' :: rest => some (.symmetricDifference, rest)
  | _ => none

/-- Read on in a class with the given parts, last first, inside the given frames. -/
def readClassFrom (ignoreSpace : Bool) :
    Nat → List ClassItem → List ClassFrame → List Char → Except Reason (Pattern × List Char)
  | 0, _, _, _ => .error .classUnclosed
  | steps + 1, items, frames, text =>
    match skip ignoreSpace text with
    | [] => .error .classUnclosed
    | '[' :: rest =>
      match asciiClass? rest with
      | some (item, rest) => readClassFrom ignoreSpace steps (item :: items) frames rest
      | none => do
        let (negated, first, rest) ← readOpening ignoreSpace rest
        readClassFrom ignoreSpace steps first (.opened items negated :: frames) rest
    | ']' :: rest =>
      match finishOperator (.item (.ofReversed items)) frames with
      | (set, .opened around negated :: frames) =>
        if frames.isEmpty then .ok (.bracketed negated set, rest)
        else readClassFrom ignoreSpace steps (.bracketed negated set :: around) frames rest
      | _ => .error .classUnclosed
    | text =>
      match classOp? text with
      | some (kind, rest) =>
        let (left, frames) := finishOperator (.item (.ofReversed items)) frames
        readClassFrom ignoreSpace steps [] (.operator kind left :: frames) rest
      | none => do
        let (item, rest) ← readRange ignoreSpace text
        readClassFrom ignoreSpace steps (item :: items) frames rest

/-- A bracketed class, after its opening bracket. -/
def readClass (ignoreSpace : Bool) (text : List Char) : Except Reason (Pattern × List Char) := do
  let (negated, first, rest) ← readOpening ignoreSpace text
  readClassFrom ignoreSpace rest.length.succ first [.opened [] negated] rest

end TestSelection.Regex
