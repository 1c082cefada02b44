import TestSelection.Path
import TestSelection.Regex

/-!
# Rules

A rule says which tests it matches. A simple rule looks at one attribute of a test and has a
source for the values that it takes. The other kinds look at annotations with their values, pick
one of several buckets, or combine further rules.

A rule may break the conditions on its parts: it may have no source or several, or numbers that
make no sense. Such a rule can be read, written and compared, and is refused when it is checked.
-/

namespace TestSelection

/-! ## Kinds -/

/-- What a simple rule looks at. -/
inductive Attribute where
  | className
  | qualifiedClass
  | package
  | qualifiedName
  | method
  | annotationName
deriving DecidableEq, Repr, Inhabited

/-- The kinds of rules. -/
inductive RuleKind where
  | simple (attr : Attribute)
  | annotationData
  | fragmentation
  | composition
deriving DecidableEq, Repr, Inhabited

/-- The name of an attribute, which is the tag of its rules. -/
def Attribute.name : Attribute → String
  | .className => "simple-class-name"
  | .qualifiedClass => "fully-qualified-class-name"
  | .package => "package"
  | .qualifiedName => "fully-qualified-test-name"
  | .method => "method"
  | .annotationName => "annotation"

namespace RuleKind

/-- The tag of a kind. -/
def name : RuleKind → String
  | .simple attr => attr.name
  | .annotationData => "annotation-data"
  | .fragmentation => "fragmentation"
  | .composition => "composition"

/-- All kinds, in the order of their numbers. -/
def all : List RuleKind :=
  [.simple .className, .simple .qualifiedClass, .simple .package, .simple .qualifiedName,
    .simple .method, .simple .annotationName, .annotationData, .fragmentation, .composition]

end RuleKind

/-! ## Rules -/

/-- A way to say which values a simple rule takes. -/
inductive SourceKind where
  | regex
  | values
  | file
deriving DecidableEq, Repr, Inhabited

/-- The name of a source. -/
def SourceKind.name : SourceKind → String
  | .regex => "regex"
  | .values => "values"
  | .file => "file"

/-- The sources of a simple rule; exactly one should be there. -/
structure Source where
  regex : Option Regex
  values : Option (List String)
  file : Option Path
deriving DecidableEq

namespace Source

def none : Source := ⟨.none, .none, .none⟩

def ofRegex (r : Regex) : Source := { none with regex := some r }

def ofValues (values : List String) : Source := { none with values := some values }

def ofFile (file : Path) : Source := { none with file := some file }

/-- The sources that are there, in a fixed order. -/
def present (s : Source) : List SourceKind :=
  (s.regex.map fun _ => SourceKind.regex).toList ++
    (s.values.map fun _ => SourceKind.values).toList ++
    (s.file.map fun _ => SourceKind.file).toList

end Source

/-- A way to combine rules. -/
inductive Operator where
  /-- What some of the rules match. -/
  | union
  /-- What all of the rules match. -/
  | intersection
  /-- What none of the rules matches. -/
  | subtract
deriving DecidableEq, Repr, Inhabited

/-- The name of an operator. -/
def Operator.name : Operator → String
  | .union => "union"
  | .intersection => "intersection"
  | .subtract => "subtract"

/-- A rule. -/
inductive Rule where
  | simple (attr : Attribute) (source : Source)
  /-- An annotation whose name and whose value both match. -/
  | annotationData (name value : Regex)
  /-- One bucket out of a number of buckets. -/
  | fragmentation (index count : Int32)
  | composition (operator : Operator) (rules : List Rule)

instance : Inhabited Rule := ⟨.composition .union []⟩

/-- The kind of a rule. -/
def Rule.kind : Rule → RuleKind
  | .simple attr _ => .simple attr
  | .annotationData _ _ => .annotationData
  | .fragmentation _ _ => .fragmentation
  | .composition _ _ => .composition

/-! ## Specifications -/

/-- The two lists of rules. -/
inductive RuleList where
  | allowlist
  | blocklist
deriving DecidableEq, Repr, Inhabited

/-- The name of a list. -/
def RuleList.name : RuleList → String
  | .allowlist => "allowlist"
  | .blocklist => "blocklist"

/-- Rules for what may run, and rules for what must not. -/
structure Specification where
  allowlist : List Rule
  blocklist : List Rule

namespace Specification

def isEmpty (s : Specification) : Bool := s.allowlist.isEmpty && s.blocklist.isEmpty

/-- All rules, with the list of each and its number in the list. -/
def rules (s : Specification) : List (RuleList × Nat × Rule) :=
  (s.allowlist.zipIdx.map fun (r, i) => (.allowlist, i, r)) ++
    s.blocklist.zipIdx.map fun (r, i) => (.blocklist, i, r)

end Specification

end TestSelection
