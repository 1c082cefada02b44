import TestSelection.Rule
import TestSelection.Test

/-!
# Filters

A filter is a rule that is ready for use: it has no files left to read and no faults. It can be
asked about one test, and it can be given a list of tests to keep some of them.

For a list, a composition gives the whole list to each of its filters and combines what they keep
as sets of tests. Tests of the list are then kept if they are in the result. A test that occurs
twice in the list is kept twice or not at all.
-/

namespace TestSelection

/-- What a value has to be. -/
inductive Matcher where
  | regex (r : Regex)
  | values (values : List String)

/-- Whether a value is as it has to be. -/
def Matcher.accepts : Matcher → String → Bool
  | .regex r, s => r.isMatch s
  | .values vs, s => vs.contains s

/-- The values of an attribute; only annotations can give several or none. -/
def Attribute.valuesIn (t : TestCase) : Attribute → List String
  | .className => [t.className]
  | .qualifiedClass => [t.qualifiedClass]
  | .package => [t.package]
  | .qualifiedName => [t.qualifiedName]
  | .method => [t.method]
  | .annotationName => t.annotations.map (·.name)

/-- One bucket out of a number of buckets. -/
structure Fragment where
  index : UInt64
  count : UInt64
deriving DecidableEq, Repr

/-- Whether a test falls into the bucket. -/
def Fragment.accepts (f : Fragment) (t : TestCase) : Bool := t.bucket? f.count = some f.index

/-- A filter. -/
inductive Filter where
  | simple (attr : Attribute) (matcher : Matcher)
  | annotationData (name value : Regex)
  | fragment (f : Fragment)
  | composition (operator : Operator) (filters : List Filter)

namespace Filter

/-! ## One test -/

/-- Whether an annotation has a name and a value that match. -/
def annotationFits (name value : Regex) (a : Annotation) : Bool :=
  name.isMatch a.name && a.value.any value.isMatch

mutual

/-- Whether a filter accepts a test. -/
def accepts : Filter → TestCase → Bool
  | .simple attr matcher, t => (attr.valuesIn t).any matcher.accepts
  | .annotationData name value, t => t.annotations.any (annotationFits name value)
  | .fragment f, t => f.accepts t
  | .composition .union filters, t => someAccepts filters t
  | .composition .intersection filters, t => allAccept filters t
  | .composition .subtract filters, t => !someAccepts filters t

/-- Whether one of the filters accepts a test. -/
def someAccepts : List Filter → TestCase → Bool
  | [], _ => false
  | f :: fs, t => accepts f t || someAccepts fs t

/-- Whether all filters accept a test. -/
def allAccept : List Filter → TestCase → Bool
  | [], _ => true
  | f :: fs, t => accepts f t && allAccept fs t

end

/-! ## Lists of tests -/

/-- Combine what a filter keeps with what was found before it. -/
def combine (operator : Operator) (found kept : List TestCase) : List TestCase :=
  match operator with
  | .union => found ++ kept
  | .intersection => found.filter fun t => kept.contains t
  | .subtract => found.filter fun t => !kept.contains t

/-- What there is before the first filter. -/
def start (operator : Operator) (tests : List TestCase) : List TestCase :=
  match operator with
  | .union => []
  | .intersection => tests
  | .subtract => tests

mutual

/-- The tests that a filter keeps, in order. -/
def keep : Filter → List TestCase → List TestCase
  | .composition operator filters, tests =>
    let found := combineAll operator tests filters (start operator tests)
    tests.filter fun t => found.contains t
  | .simple attr matcher, tests => tests.filter (accepts (.simple attr matcher))
  | .annotationData name value, tests => tests.filter (accepts (.annotationData name value))
  | .fragment f, tests => tests.filter (accepts (.fragment f))

/-- Combine what filters keep of a list, one after the other. -/
def combineAll (operator : Operator) (tests : List TestCase) :
    List Filter → List TestCase → List TestCase
  | [], found => found
  | f :: fs, found => combineAll operator tests fs (combine operator found (keep f tests))

end

/-- The tests that a filter does not keep, in order. -/
def drop (f : Filter) (tests : List TestCase) : List TestCase :=
  let kept := f.keep tests
  tests.filter fun t => !kept.contains t

end Filter

end TestSelection
