import TestSelection.Unicode.CodeSet

/-!
# Regular expressions

The core of a regular expression, in which flags have been worked into the parts. The functions
that build expressions put them into a simpler form that means the same: adjacent texts become one,
nested concatenations and alternations are flattened, and an alternation of single characters
becomes a set.
-/

namespace TestSelection.Regex

open Unicode (CodeSet)

/-- A condition on a place in the input. -/
inductive Look where
  | textStart
  | textEnd
  | lineStart
  | lineEnd
  | lineStartCRLF
  | lineEndCRLF
  /-- A condition on the characters at both sides; the flag says whether words are Unicode words. -/
  | wordBoundary (unicode : Bool)
  | notWordBoundary (unicode : Bool)
  | wordStart (unicode : Bool)
  | wordEnd (unicode : Bool)
  | wordStartHalf (unicode : Bool)
  | wordEndHalf (unicode : Bool)
deriving DecidableEq, Repr

/-- A regular expression. -/
inductive Expr where
  | empty
  | text (chars : List Char)
  /-- One character of a set; the flag tells whether the set was written as a set of characters or
  as a set of bytes, all of them ASCII. -/
  | set (unicode : Bool) (s : CodeSet)
  | look (l : Look)
  | repetition (least : Nat) (greatest : Option Nat) (greedy : Bool) (sub : Expr)
  | capture (index : Nat) (name : Option String) (sub : Expr)
  | concat (parts : List Expr)
  | alternation (branches : List Expr)
deriving Inhabited

namespace Expr

/-! ## Equality -/

mutual

/-- Whether two expressions are the same. -/
def same : Expr → Expr → Bool
  | .empty, .empty => true
  | .text a, .text b => a == b
  | .set u s, .set v t => u == v && s == t
  | .look a, .look b => a == b
  | .repetition a b c x, .repetition d e f y => a == d && b == e && c == f && same x y
  | .capture i n x, .capture j m y => i == j && n == m && same x y
  | .concat xs, .concat ys => sameList xs ys
  | .alternation xs, .alternation ys => sameList xs ys
  | _, _ => false

/-- Whether two lists hold the same expressions. -/
def sameList : List Expr → List Expr → Bool
  | [], [] => true
  | x :: xs, y :: ys => same x y && sameList xs ys
  | _, _ => false

end

/-! ## Length of what is matched -/

/-- The number of bytes of a character in UTF-8. -/
def byteCount (c : Nat) : Nat :=
  if c < 0x80 then 1 else if c < 0x800 then 2 else if c < 0x10000 then 3 else 4

mutual

/-- The least number of bytes that an expression matches, if it matches anything. -/
def minLength? : Expr → Option Nat
  | .empty => some 0
  | .text chars => some (chars.foldl (fun n c => n + byteCount c.toNat) 0)
  | .set _ s => s.ranges.head?.map fun r => byteCount r.1
  | .look _ => some 0
  | .repetition least _ _ sub => (minLength? sub).map (least * ·)
  | .capture _ _ sub => minLength? sub
  | .concat parts => minLengthSum? parts
  | .alternation branches => minLengthOf? branches

/-- The least length of a sequence. -/
def minLengthSum? : List Expr → Option Nat
  | [] => some 0
  | x :: xs => do return (← minLength? x) + (← minLengthSum? xs)

/-- The least length of a choice, unless one of its branches has none. -/
def minLengthOf? : List Expr → Option Nat
  | [] => none
  | [x] => minLength? x
  | x :: xs => do return min (← minLength? x) (← minLengthOf? xs)

end

mutual

/-- The greatest number of bytes that an expression matches, if there is one. -/
def maxLength? : Expr → Option Nat
  | .empty => some 0
  | .text chars => some (chars.foldl (fun n c => n + byteCount c.toNat) 0)
  | .set _ s => s.ranges.getLast?.map fun r => byteCount r.2
  | .look _ => some 0
  | .repetition _ greatest _ sub => do return (← greatest) * (← maxLength? sub)
  | .capture _ _ sub => maxLength? sub
  | .concat parts => maxLengthSum? parts
  | .alternation branches => maxLengthOf? branches

/-- The greatest length of a sequence. -/
def maxLengthSum? : List Expr → Option Nat
  | [] => some 0
  | x :: xs => do return (← maxLength? x) + (← maxLengthSum? xs)

/-- The greatest length of a choice. -/
def maxLengthOf? : List Expr → Option Nat
  | [] => some 0
  | x :: xs => do return max (← maxLength? x) (← maxLengthOf? xs)

end

/-! ## Construction -/

/-- An expression that matches nothing. -/
def never : Expr := .set false .empty

/-- A set; a set of one character is a text. -/
def ofSet (unicode : Bool) (s : CodeSet) : Expr :=
  match s.ranges with
  | [] => never
  | [(lo, hi)] => if lo = hi then .text [Char.ofNat lo] else .set unicode s
  | _ => .set unicode s

/-- A repetition. What matches only the empty text is repeated at most once; none is the empty
expression, and exactly one is the expression itself. -/
def ofRepetition (least : Nat) (greatest : Option Nat) (greedy : Bool) (sub : Expr) : Expr :=
  let isEmpty := maxLength? sub = some 0
  let least := if isEmpty then min least 1 else least
  let greatest := if isEmpty then some ((greatest.map (min · 1)).getD 1) else greatest
  if least = 0 ∧ greatest = some 0 then .empty
  else if least = 1 ∧ greatest = some 1 then sub
  else .repetition least greatest greedy sub

/-- Put a part before the parts that follow it, joining texts and dropping what is empty. -/
def prepend (part : Expr) (rest : List Expr) : List Expr :=
  match part, rest with
  | .empty, rest => rest
  | .text a, .text b :: rest => .text (a ++ b) :: rest
  | part, rest => part :: rest

/-- The parts of a concatenation that is itself a part. -/
def partsOf : Expr → List Expr
  | .concat parts => parts
  | part => [part]

/-- A concatenation. -/
def ofConcat (parts : List Expr) : Expr :=
  match (parts.flatMap partsOf).foldr prepend [] with
  | [] => .empty
  | [part] => part
  | parts => .concat parts

/-- The branches of an alternation that is itself a branch. -/
def branchesOf : Expr → List Expr
  | .alternation branches => branches
  | branch => [branch]

/-- The character of a text of one character. -/
def singleChar? : Expr → Option Char
  | .text [c] => some c
  | _ => none

/-- The set of an expression that is one. -/
def setOf? : Expr → Option CodeSet
  | .set _ s => some s
  | _ => none

/-- The parts that two sequences have in common at the start. -/
def commonParts : List Expr → List Expr → List Expr
  | x :: xs, y :: ys => if same x y then x :: commonParts xs ys else []
  | _, _ => []

/-- The parts that all branches have in common at the start, if all are concatenations. -/
def commonStart : List Expr → List Expr
  | [] => []
  | [.concat parts] => parts
  | .concat parts :: rest => commonParts parts (commonStart rest)
  | _ => []

/-- A branch without its first parts. -/
def dropParts (n : Nat) : Expr → Expr
  | .concat parts => ofConcat (parts.drop n)
  | branch => branch

/-- An alternation of which no more than this is known: it has at least two branches, and they are
flat. The first argument bounds how often a common start can be taken out. -/
def ofBranches : Nat → List Expr → Expr
  | _, [] => never
  | _, [branch] => branch
  | 0, branches => .alternation branches
  | steps + 1, branches =>
    match branches.mapM singleChar? with
    | some chars => ofSet true (.ofRanges (chars.map fun c => (c.toNat, c.toNat)))
    | none =>
      match branches.mapM setOf? with
      | some sets => ofSet true (.unions sets)
      | none =>
        match commonStart branches with
        | [] => .alternation branches
        | start =>
          let rests := (branches.map (dropParts start.length)).flatMap branchesOf
          ofConcat (start ++ [ofBranches steps rests])

/-- An alternation. -/
def ofAlternation (branches : List Expr) : Expr :=
  let flat := branches.flatMap branchesOf
  ofBranches flat.length.succ flat

end Expr

end TestSelection.Regex
