import TestSelection.Regex.Expr
import TestSelection.Unicode.Property

/-!
# Matching

An input of `n` characters has `n + 1` places, one before each character and one at the end. A set
of places is a number, whose bit `i` tells whether place `i` belongs to it.

An expression sends each set of places to the places that can be reached from there: `Plan.run`.
Everything that depends on the input alone is worked out beforehand and kept in the `Plan`: where a
character of a set stands, where a text occurs, where a condition holds. A repetition goes on until
the set of places no longer changes.

The expression has a match if some place can be reached from some place.
-/

namespace TestSelection.Regex

/-! ## Conditions -/

/-- Whether a character is part of a word. -/
def isWordChar (unicode : Bool) (c : Char) : Bool :=
  if unicode then Unicode.Property.word.mem c.toNat
  else c = '_' || c.isAlphanum

/-- Whether a condition holds between two characters; none means the end of the input. -/
def Look.holds (before after : Option Char) : Look → Bool
  | .textStart => before.isNone
  | .textEnd => after.isNone
  | .lineStart => before.all (· = '\n')
  | .lineEnd => after.all (· = '\n')
  | .lineStartCRLF => before.all (· = '\n') || (before = some '\r' && after != some '\n')
  | .lineEndCRLF => after.all (· = '\r') || (after = some '\n' && before != some '\r')
  | .wordBoundary u => before.any (isWordChar u) != after.any (isWordChar u)
  | .notWordBoundary u => before.any (isWordChar u) == after.any (isWordChar u)
  | .wordStart u => !before.any (isWordChar u) && after.any (isWordChar u)
  | .wordEnd u => before.any (isWordChar u) && !after.any (isWordChar u)
  | .wordStartHalf u => !before.any (isWordChar u)
  | .wordEndHalf u => !after.any (isWordChar u)

/-! ## Places -/

/-- The set of places whose marks are true. -/
def placesOf : List Bool → Nat
  | [] => 0
  | b :: bs => 2 * placesOf bs + b.toNat

/-- All places of an input. -/
def allPlaces (input : List Char) : Nat := (1 <<< (input.length + 1)) - 1

/-- For each place of an input, whether a text occurs there. -/
def textMarks (text : List Char) : List Char → List Bool
  | [] => [text.isEmpty]
  | c :: cs => text.isPrefixOf (c :: cs) :: textMarks text cs

/-- The places before a character that passes a test. -/
def placesBefore (test : Char → Bool) (input : List Char) : Nat := placesOf (input.map test)

/-- The places at which a text occurs. -/
def occurrences (input text : List Char) : Nat := placesOf (textMarks text input)

/-- The places at which a condition holds, given the character before the input. -/
def placesOfLook (l : Look) (before : Option Char) : List Char → List Bool
  | [] => [l.holds before none]
  | c :: cs => l.holds before (some c) :: placesOfLook l (some c) cs

/-! ## Plans -/

/-- An expression, prepared for one input. -/
inductive Plan where
  /-- Stay at those places that are in a set. -/
  | stay (allowed : Nat)
  /-- Move on by some characters from those places that are in a set. -/
  | move (starts width : Nat)
  | seq (parts : List Plan)
  | choice (branches : List Plan)
  /-- Repeat a number of times, and then up to a number of times more. -/
  | loop (least more : Nat) (sub : Plan)

/-- Repeat a step a number of times. -/
def stepTimes (step : Nat → Nat) : Nat → Nat → Nat
  | 0, p => p
  | n + 1, p =>
    let q := step p
    if q = p then p else stepTimes step n q

/-- Repeat a step up to a number of times, and keep all places on the way. -/
def stepUpTo (step : Nat → Nat) : Nat → Nat → Nat
  | 0, p => p
  | n + 1, p =>
    let q := p ||| step p
    if q = p then p else stepUpTo step n q

namespace Plan

mutual

/-- The plan of an expression for an input. -/
def ofExpr (input : List Char) : Expr → Plan
  | .empty => .seq []
  | .text chars => .move (occurrences input chars) chars.length
  | .set _ s => .move (placesBefore (fun c => s.mem c.toNat) input) 1
  | .look l => .stay (placesOf (placesOfLook l none input))
  | .repetition least greatest _ sub =>
    .loop least ((greatest.map (· - least)).getD (input.length + 1)) (ofExpr input sub)
  | .capture _ _ sub => ofExpr input sub
  | .concat parts => .seq (ofExprs input parts)
  | .alternation branches => .choice (ofExprs input branches)

/-- The plans of expressions. -/
def ofExprs (input : List Char) : List Expr → List Plan
  | [] => []
  | x :: xs => ofExpr input x :: ofExprs input xs

end

mutual

/-- The places that can be reached from a set of places. -/
def run : Plan → Nat → Nat
  | .stay allowed, p => p &&& allowed
  | .move starts width, p => (p &&& starts) <<< width
  | .seq parts, p => runParts parts p
  | .choice branches, p => runBranches branches p
  | .loop least more sub, p => stepUpTo (run sub) more (stepTimes (run sub) least p)

/-- The places that can be reached through one part after the other. -/
def runParts : List Plan → Nat → Nat
  | [], p => p
  | x :: xs, p => runParts xs (run x p)

/-- The places that can be reached through one of the branches. -/
def runBranches : List Plan → Nat → Nat
  | [], _ => 0
  | x :: xs, p => run x p ||| runBranches xs p

end

end Plan

/-- Whether an expression has a match somewhere in the input. -/
def Expr.isMatch (x : Expr) (input : List Char) : Bool :=
  (Plan.ofExpr input x).run (allPlaces input) != 0

end TestSelection.Regex
