/-!
# Patterns as written

The tree of a regular expression before its flags are taken into account. It keeps what later
steps ask for: which literals were written as two hexadecimal digits, where flags were set, and how
classes are put together.
-/

namespace TestSelection.Regex

/-- A switch that a pattern can turn on and off. -/
inductive Flag where
  | ignoreCase
  | multiLine
  | dotMatchesNewLine
  | swapGreed
  | unicode
  | crlf
  | ignoreSpace
deriving DecidableEq, Repr

/-- An item in a list of flags: a flag, or the sign that turns off those after it. -/
inductive FlagItem where
  | negation
  | flag (f : Flag)
deriving DecidableEq, Repr

/-- Whether a list of flags turns a flag on or off, if it names it. -/
def FlagItem.state? (f : Flag) : List FlagItem → Option Bool
  | [] => none
  | .negation :: rest => if rest.contains (.flag f) then some false else none
  | .flag g :: rest => if g = f then some true else state? f rest

/-- A character, and whether it was written as `\x` with two digits. -/
structure Literal where
  char : Char
  isByte : Bool
deriving DecidableEq, Repr

/-- The classes of one letter. -/
inductive PerlClass where
  | digit
  | space
  | word
deriving DecidableEq, Repr

/-- The classes with a name between colons. -/
inductive AsciiClass where
  | alnum
  | alpha
  | ascii
  | blank
  | cntrl
  | digit
  | graph
  | lower
  | print
  | punct
  | space
  | upper
  | word
  | xdigit
deriving DecidableEq, Repr

/-- A class given by a property: a bare name, or a property and a value. -/
inductive PropertyName where
  | bare (name : String)
  | value (property value : String)
deriving DecidableEq, Repr

/-- A place that a pattern can require. -/
inductive Assertion where
  | lineStart
  | lineEnd
  | textStart
  | textEnd
  | wordBoundary
  | notWordBoundary
  | wordStart
  | wordEnd
  | wordStartHalf
  | wordEndHalf
deriving DecidableEq, Repr

/-- The operators between the parts of a class. -/
inductive ClassOp where
  | intersection
  | difference
  | symmetricDifference
deriving DecidableEq, Repr

mutual

/-- A part of a bracketed class. -/
inductive ClassItem where
  | empty
  | literal (l : Literal)
  | range (first last : Literal)
  | ascii (kind : AsciiClass) (negated : Bool)
  | property (name : PropertyName) (negated : Bool)
  | perl (kind : PerlClass) (negated : Bool)
  | bracketed (negated : Bool) (set : ClassSet)
  | union (items : List ClassItem)

/-- The content of a bracketed class. -/
inductive ClassSet where
  | item (i : ClassItem)
  | op (kind : ClassOp) (left right : ClassSet)

end

/-- What a group is for. -/
inductive GroupKind where
  | capture (index : Nat) (name : Option String)
  | flags (items : List FlagItem)
deriving DecidableEq, Repr

/-- A pattern. -/
inductive Pattern where
  | empty
  | flags (items : List FlagItem)
  | literal (l : Literal)
  | dot
  | assertion (a : Assertion)
  | property (name : PropertyName) (negated : Bool)
  | perl (kind : PerlClass) (negated : Bool)
  | bracketed (negated : Bool) (set : ClassSet)
  | repetition (least : Nat) (greatest : Option Nat) (greedy : Bool) (sub : Pattern)
  | group (kind : GroupKind) (sub : Pattern)
  | alternation (branches : List Pattern)
  | concat (parts : List Pattern)
deriving Inhabited

/-! ## Depth -/

mutual

/-- The depth of nesting of a part of a class. -/
def ClassItem.depth : ClassItem → Nat
  | .bracketed _ set => set.depth + 1
  | .union items => ClassItem.depthItems items + 1
  | _ => 0

/-- The greatest depth among parts of a class. -/
def ClassItem.depthItems : List ClassItem → Nat
  | [] => 0
  | i :: is => max i.depth (ClassItem.depthItems is)

/-- The depth of nesting of the content of a class. -/
def ClassSet.depth : ClassSet → Nat
  | .item i => i.depth
  | .op _ left right => max left.depth right.depth + 1

end

mutual

/-- The depth of nesting of a pattern: each group, repetition, class, alternation and concatenation
counts. -/
def Pattern.depth : Pattern → Nat
  | .bracketed _ set => set.depth + 1
  | .repetition _ _ _ sub => sub.depth + 1
  | .group _ sub => sub.depth + 1
  | .alternation branches => Pattern.depthList branches + 1
  | .concat parts => Pattern.depthList parts + 1
  | _ => 0

/-- The greatest depth among patterns. -/
def Pattern.depthList : List Pattern → Nat
  | [] => 0
  | p :: ps => max p.depth (Pattern.depthList ps)

end

end TestSelection.Regex
