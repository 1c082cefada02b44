import TestSelection.Regex.Expr.OfPattern
import TestSelection.Regex.Expr.Printer
import TestSelection.Regex.Match
import TestSelection.Regex.Pattern.Reader
import TestSelection.Regex.Program.Size

/-!
# Regular expressions for whole texts

A `Regex` is the text of a pattern together with the expression that it stands for. The expression
is put between the conditions for the start and the end of the input, so nothing written in the
pattern can weaken them, and only whole inputs match.

The anchored expression is written as a pattern and read again before it is used. That it can be
read is checked, and so is the size of its program.
-/

namespace TestSelection

namespace Regex

/-- The expression that a text stands for. -/
def parse (source : String) : Except Reason Expr := do
  Expr.ofPattern (← Pattern.read source.toList)

/-- An expression that has to match from the start of the input to the end. -/
def anchor (x : Expr) : Expr := .ofConcat [.look .textStart, x, .look .textEnd]

/-- The expression of the printed form of an expression. -/
def reread (x : Expr) : Except Reason Expr := do
  Expr.ofPattern (← Pattern.read x.print)

/-- The anchored expression of a text, if it can be used. -/
def compile (source : String) : Except Reason Expr := do
  let x ← parse source
  match reread (anchor x) with
  | .error _ => .error .anchoredForm
  | .ok x => if Program.tooLarge x then .error .tooLarge else .ok x

end Regex

/-- A pattern that can be used. -/
structure Regex where
  source : String
  expr : Regex.Expr
  compiles : Regex.compile source = .ok expr

namespace Regex

/-- Compile a pattern. -/
def ofString (source : String) : Except RegexError Regex :=
  match h : compile source with
  | .ok expr => .ok ⟨source, expr, h⟩
  | .error reason => .error ⟨source, reason⟩

/-- Two patterns with the same text are the same. -/
theorem eq_of_source_eq {a b : Regex} (h : a.source = b.source) : a = b := by
  cases a with
  | mk s x hx =>
    cases b with
    | mk t y hy =>
      cases h
      have : x = y := by simpa [hx] using hy
      subst this
      rfl

instance : DecidableEq Regex := fun a b =>
  if h : a.source = b.source then isTrue (eq_of_source_eq h)
  else isFalse fun e => h (e ▸ rfl)

/-- Whether a pattern matches the whole of a text. -/
def isMatch (r : Regex) (text : String) : Bool := r.expr.isMatch text.toList

end Regex

end TestSelection
