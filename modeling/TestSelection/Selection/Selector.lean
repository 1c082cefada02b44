import TestSelection.Filter.Compile
import TestSelection.Selection

/-!
# Selectors

A selector is a specification whose rules were compiled. A test is selected if a rule for what may
run accepts it, or there is no such rule, and no rule for what must not run does.

The verdict on a test does not depend on the list in which it stands. A list is nevertheless given
to the filters as a whole, as each filter can keep tests of a list by itself.
-/

namespace TestSelection

/-- The filters of both lists. Without rules for what may run there is no filter for it. -/
structure Selector where
  allowlist : Option Filter
  blocklist : Filter

/-- A rule of a specification that cannot be compiled. -/
structure SelectorError where
  list : RuleList
  index : Nat
  cause : CompileError
deriving DecidableEq

/-- The wording of a failure. -/
def SelectorError.message (e : SelectorError) : String :=
  "failed to compile " ++ placeText e.list e.index

namespace Selector

/-! ## Compiling -/

/-- Compile the rules of a list, counting from a number. -/
def compileFrom (cx : Context) (list : RuleList) :
    Nat → List Rule → Except SelectorError (List Filter)
  | _, [] => .ok []
  | index, r :: rs =>
    match r.compile cx with
    | .error cause => .error ⟨list, index, cause⟩
    | .ok f => do return f :: (← compileFrom cx list (index + 1) rs)

/-- The filter of a list: what some rule of the list matches. -/
def compileList (cx : Context) (list : RuleList) (rules : List Rule) :
    Except SelectorError Filter := do
  return .composition .union (← compileFrom cx list 0 rules)

/-- The selector of the filters of a specification. -/
def ofFilters (spec : Specification) (allowlist blocklist : Filter) : Selector :=
  ⟨if spec.allowlist.isEmpty then none else some allowlist, blocklist⟩

/-- Compile a specification, the allowlist first. -/
def ofSpecification (cx : Context) (spec : Specification) : Except SelectorError Selector := do
  let allowlist ← compileList cx .allowlist spec.allowlist
  let blocklist ← compileList cx .blocklist spec.blocklist
  return ofFilters spec allowlist blocklist

/-! ## Verdicts -/

/-- The verdict on one test. -/
def verdict (s : Selector) (t : TestCase) : Verdict :=
  if s.allowlist.any fun f => !f.accepts t then .skipped .notAllowlisted
  else if s.blocklist.accepts t then .skipped .blocklisted
  else .selected

/-- The verdicts on a list of tests. -/
def select (s : Selector) (tests : List TestCase) : Selection :=
  let allowed := s.allowlist.map fun f => f.keep tests
  let blocked := s.blocklist.keep tests
  ⟨tests.map fun t =>
    if allowed.any fun kept => !kept.contains t then (t, .skipped .notAllowlisted)
    else if blocked.contains t then (t, .skipped .blocklisted)
    else (t, .selected)⟩

end Selector

end TestSelection
