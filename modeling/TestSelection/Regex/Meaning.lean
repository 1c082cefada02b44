import TestSelection.Regex.Match

/-!
# What an expression matches

`Expr.Matches input x i j` says that the expression `x` matches the part of the input from place
`i` to place `j`. It is said directly for each kind of expression, without a search: a
concatenation matches if there are places in between, a repetition if there is a number of times.
-/

namespace TestSelection.Regex

/-- A relation between places, followed a number of times. -/
def Times (r : Nat → Nat → Prop) : Nat → Nat → Nat → Prop
  | 0, i, j => i = j
  | n + 1, i, j => ∃ k, r i k ∧ Times r n k j

/-- The condition holds at a place of the input. -/
def Look.HoldsAt (input : List Char) (l : Look) (i : Nat) : Prop :=
  i ≤ input.length ∧ l.holds (if i = 0 then none else input[i - 1]?) input[i]? = true

namespace Expr

mutual

/-- The expression matches the input between two places. -/
def Matches (input : List Char) : Expr → Nat → Nat → Prop
  | .empty, i, j => i = j ∧ i ≤ input.length
  | .text chars, i, j => j = i + chars.length ∧ i ≤ input.length ∧ chars <+: input.drop i
  | .set _ s, i, j => j = i + 1 ∧ ∃ c, input[i]? = some c ∧ s.mem c.toNat = true
  | .look l, i, j => i = j ∧ l.HoldsAt input i
  | .repetition least greatest _ sub, i, j =>
    ∃ more, (∀ n ∈ greatest, more ≤ n - least) ∧ Times (Matches input sub) (least + more) i j
  | .capture _ _ sub, i, j => Matches input sub i j
  | .concat parts, i, j => MatchesAll input parts i j
  | .alternation branches, i, j => MatchesAny input branches i j

/-- The expressions match one after the other. -/
def MatchesAll (input : List Char) : List Expr → Nat → Nat → Prop
  | [], i, j => i = j ∧ i ≤ input.length
  | x :: xs, i, j => ∃ k, Matches input x i k ∧ MatchesAll input xs k j

/-- One of the expressions matches. -/
def MatchesAny (input : List Char) : List Expr → Nat → Nat → Prop
  | [], _, _ => False
  | x :: xs, i, j => Matches input x i j ∨ MatchesAny input xs i j

end

/-- The expression matches the whole input. -/
def MatchesWhole (x : Expr) (input : List Char) : Prop := x.Matches input 0 input.length

end Expr

end TestSelection.Regex
