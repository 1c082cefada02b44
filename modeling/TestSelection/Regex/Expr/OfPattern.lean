import TestSelection.Regex.Error
import TestSelection.Regex.Expr
import TestSelection.Regex.Pattern
import TestSelection.Unicode.CaseFolding
import TestSelection.Unicode.Query

/-!
# The meaning of a pattern

`Expr.ofPattern` works the flags of a pattern into an expression. Flags that are set in the middle
of a group hold to the end of that group, over all branches that follow.

Input is always text, so an expression that could match a part of a character is refused. With
Unicode turned off, classes are sets of bytes, and all but the ASCII ones are refused.
-/

namespace TestSelection.Regex

open Unicode (CodeSet)

/-- The flags that hold at a place. -/
structure Flags where
  ignoreCase : Bool
  multiLine : Bool
  dotMatchesNewLine : Bool
  swapGreed : Bool
  unicode : Bool
  crlf : Bool
deriving DecidableEq, Repr

namespace Flags

/-- The flags at the start of a pattern. -/
def initial : Flags := ⟨false, false, false, false, true, false⟩

/-- The flags after a list of flag items. -/
def update (flags : Flags) (items : List FlagItem) : Flags :=
  let get (f : Flag) (old : Bool) := (FlagItem.state? f items).getD old
  { ignoreCase := get .ignoreCase flags.ignoreCase
    multiLine := get .multiLine flags.multiLine
    dotMatchesNewLine := get .dotMatchesNewLine flags.dotMatchesNewLine
    swapGreed := get .swapGreed flags.swapGreed
    unicode := get .unicode flags.unicode
    crlf := get .crlf flags.crlf }

end Flags

/-! ## Sets -/

/-- The characters of a class with a name between colons. -/
def AsciiClass.set (kind : AsciiClass) : CodeSet :=
  .ofRanges <|
    match kind with
    | .alnum => [(0x30, 0x39), (0x41, 0x5A), (0x61, 0x7A)]
    | .alpha => [(0x41, 0x5A), (0x61, 0x7A)]
    | .ascii => [(0x00, 0x7F)]
    | .blank => [(0x09, 0x09), (0x20, 0x20)]
    | .cntrl => [(0x00, 0x1F), (0x7F, 0x7F)]
    | .digit => [(0x30, 0x39)]
    | .graph => [(0x21, 0x7E)]
    | .lower => [(0x61, 0x7A)]
    | .print => [(0x20, 0x7E)]
    | .punct => [(0x21, 0x2F), (0x3A, 0x40), (0x5B, 0x60), (0x7B, 0x7E)]
    | .space => [(0x09, 0x0D), (0x20, 0x20)]
    | .upper => [(0x41, 0x5A)]
    | .word => [(0x30, 0x39), (0x41, 0x5A), (0x5F, 0x5F), (0x61, 0x7A)]
    | .xdigit => [(0x30, 0x39), (0x41, 0x46), (0x61, 0x66)]

/-- The characters of a class of one letter. -/
def PerlClass.set (unicode : Bool) : PerlClass → CodeSet
  | .digit => if unicode then Unicode.Property.decimal else AsciiClass.set .digit
  | .space => if unicode then Unicode.Listed.whiteSpace else AsciiClass.set .space
  | .word => if unicode then Unicode.Property.word else AsciiClass.set .word

/-- Add to a set of bytes the other case of its ASCII letters. -/
def closeAscii (s : CodeSet) : CodeSet :=
  let shift (lo hi : Nat) (f : Nat → Nat) : List (Nat × Nat) :=
    (s.inter (.range lo hi)).ranges.map fun r => (f r.1, f r.2)
  .ofRanges (s.ranges ++ shift 0x41 0x5A (· + 32) ++ shift 0x61 0x7A (· - 32))

namespace Flags

/-- Close a set under change of case, if case is ignored. -/
def fold (flags : Flags) (s : CodeSet) : CodeSet :=
  if flags.ignoreCase then
    if flags.unicode then Unicode.CaseFolding.close s else closeAscii s
  else s

/-- Fold a set, then turn it around. A set of bytes has to be ASCII afterwards. -/
def foldAndNegate (flags : Flags) (negated : Bool) (s : CodeSet) : Except Reason CodeSet :=
  let s := flags.fold s
  if flags.unicode then .ok (if negated then s.compl else s)
  else
    let s := if negated then s.compl.inter (.range 0 0xFF) else s
    if s.isAscii then .ok s else .error .invalidUtf8

/-- The characters of a class of one letter, which ignores the flag for case. -/
def perl (flags : Flags) (kind : PerlClass) (negated : Bool) : Except Reason CodeSet :=
  { flags with ignoreCase := false }.foldAndNegate negated (kind.set flags.unicode)

/-- The characters of a property. -/
def property (flags : Flags) (name : PropertyName) (negated : Bool) : Except Reason CodeSet := do
  if !flags.unicode then .error .unicodeNotAllowed
  else
    let answer := match name with
      | .bare name => Unicode.Query.named name
      | .value property value => Unicode.Query.withValue property value
    match answer with
    | .ok s => flags.foldAndNegate negated s
    | .error .noProperty => .error .propertyUnknown
    | .error .noValue => .error .propertyValueUnknown

/-- A character as a literal. With Unicode off, two hexadecimal digits name a byte. -/
def char (flags : Flags) (l : Literal) : Except Reason Char :=
  if !flags.unicode ∧ l.isByte ∧ 0x7F < l.char.toNat then .error .invalidUtf8 else .ok l.char

/-- A character as a member of a class. -/
def member (flags : Flags) (l : Literal) : Except Reason Nat := do
  if flags.unicode then return l.char.toNat
  else
    let c ← flags.char l
    if c.toNat < 0x80 then return c.toNat else .error .unicodeNotAllowed

mutual

/-- The characters of a part of a class. -/
def item (flags : Flags) : ClassItem → Except Reason CodeSet
  | .empty => .ok .empty
  | .literal l => do return .single (← flags.member l)
  | .range first last => do
    let first ← flags.member first
    let last ← flags.member last
    return .range first last
  | .ascii kind negated => flags.foldAndNegate negated kind.set
  | .property name negated => flags.property name negated
  | .perl kind negated => flags.perl kind negated
  | .bracketed negated s => do flags.foldAndNegate negated (← content flags s)
  | .union items => do return .unions (← itemList flags items)

/-- The characters of each part of a class. -/
def itemList (flags : Flags) : List ClassItem → Except Reason (List CodeSet)
  | [] => .ok []
  | i :: is => do
    let s ← item flags i
    return s :: (← itemList flags is)

/-- The characters of the content of a class. The sides of an operator are folded first. -/
def content (flags : Flags) : ClassSet → Except Reason CodeSet
  | .item i => item flags i
  | .op kind left right => do
    let left := flags.fold (← content flags left)
    let right := flags.fold (← content flags right)
    match kind with
    | .intersection => return left.inter right
    | .difference => return left.diff right
    | .symmetricDifference => return left.symmDiff right

end

/-! ## Expressions -/

/-- A character, or the set of its variants if case is ignored and it has any. -/
def literal (flags : Flags) (l : Literal) : Except Reason Expr := do
  let c ← flags.char l
  let variants := flags.fold (.single c.toNat)
  if variants.ranges = [(c.toNat, c.toNat)] then return .text [c]
  else return .ofSet flags.unicode variants

/-- Any character but the end of a line, or any at all. -/
def dot (flags : Flags) : Except Reason Expr :=
  if !flags.unicode then .error .invalidUtf8
  else if flags.dotMatchesNewLine then .ok (.ofSet true .all)
  else if flags.crlf then .ok (.ofSet true (CodeSet.ofRanges [(0x0A, 0x0A), (0x0D, 0x0D)]).compl)
  else .ok (.ofSet true (CodeSet.single 0x0A).compl)

/-- The condition of an assertion. -/
def look (flags : Flags) : Assertion → Look
  | .lineStart =>
    if flags.multiLine then (if flags.crlf then .lineStartCRLF else .lineStart) else .textStart
  | .lineEnd =>
    if flags.multiLine then (if flags.crlf then .lineEndCRLF else .lineEnd) else .textEnd
  | .textStart => .textStart
  | .textEnd => .textEnd
  | .wordBoundary => .wordBoundary flags.unicode
  | .notWordBoundary => .notWordBoundary flags.unicode
  | .wordStart => .wordStart flags.unicode
  | .wordEnd => .wordEnd flags.unicode
  | .wordStartHalf => .wordStartHalf flags.unicode
  | .wordEndHalf => .wordEndHalf flags.unicode

end Flags

namespace Expr

mutual

/-- The expression of a pattern, and the flags that hold after it. -/
def ofPatternFrom (flags : Flags) : Pattern → Except Reason (Expr × Flags)
  | .empty => .ok (.empty, flags)
  | .flags items => .ok (.empty, flags.update items)
  | .literal l => do return (← flags.literal l, flags)
  | .dot => do return (← flags.dot, flags)
  | .assertion a => .ok (.look (flags.look a), flags)
  | .property name negated => do return (.ofSet true (← flags.property name negated), flags)
  | .perl kind negated => do return (.ofSet flags.unicode (← flags.perl kind negated), flags)
  | .bracketed negated s => do
    let s ← flags.foldAndNegate negated (← flags.content s)
    return (.ofSet flags.unicode s, flags)
  | .repetition least greatest greedy sub => do
    let (sub, flags) ← ofPatternFrom flags sub
    return (.ofRepetition least greatest (greedy != flags.swapGreed) sub, flags)
  | .group (.capture index name) sub => do
    let (sub, _) ← ofPatternFrom flags sub
    return (.capture index name sub, flags)
  | .group (.flags items) sub => do
    let (sub, _) ← ofPatternFrom (flags.update items) sub
    return (sub, flags)
  | .alternation branches => do
    let (branches, flags) ← ofPatternList flags branches
    return (.ofAlternation branches, flags)
  | .concat parts => do
    let (parts, flags) ← ofPatternList flags parts
    return (.ofConcat parts, flags)

/-- The expressions of patterns, each with the flags that hold after the ones before it. -/
def ofPatternList (flags : Flags) : List Pattern → Except Reason (List Expr × Flags)
  | [] => .ok ([], flags)
  | p :: ps => do
    let (x, flags) ← ofPatternFrom flags p
    let (xs, flags) ← ofPatternList flags ps
    return (x :: xs, flags)

end

/-- The expression of a pattern. -/
def ofPattern (p : Pattern) : Except Reason Expr := do
  let (x, _) ← ofPatternFrom .initial p
  return x

end Expr

end TestSelection.Regex
