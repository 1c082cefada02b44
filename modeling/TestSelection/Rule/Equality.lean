import TestSelection.Hash.XXH64
import TestSelection.Rule

/-!
# Equality of rules

Two compositions are equal if they have the same operator and the same rules, each as often in one
as in the other, in any order. Other rules are equal if their parts are; files are compared as
paths.

It is enough to count, for each rule on the left, how often it occurs on both sides, because the
two lists have equal lengths.

What a rule feeds into a hash is a list of items. A composition feeds the sum of the hashes of its
rules, so that their order makes no difference. A path feeds its components, as it is compared by
them.
-/

namespace TestSelection

/-- Whether two optional paths are the same. -/
def sameFile : Option Path → Option Path → Bool
  | some p, some q => p.same q
  | none, none => true
  | _, _ => false

/-- Whether two simple rules have the same sources. -/
def Source.same (s t : Source) : Bool :=
  s.regex == t.regex && s.values == t.values && sameFile s.file t.file

namespace Rule

/-- Whether two rules are equal. -/
def same : Rule → Rule → Bool
  | .simple a s, .simple b t => a == b && s.same t
  | .annotationData n v, .annotationData m w => n == m && v == w
  | .fragmentation i n, .fragmentation j m => i == j && n == m
  | .composition o rs, .composition p ss =>
    o == p && rs.length == ss.length &&
      rs.attach.all fun ⟨r, _⟩ =>
        rs.attach.countP (fun ⟨x, _⟩ => same x r) == ss.attach.countP (fun ⟨x, _⟩ => same x r)
  | _, _ => false
termination_by x y => max (sizeOf x) (sizeOf y)
decreasing_by
  all_goals
    rename_i h h'
    have := List.sizeOf_lt_of_mem h
    have := List.sizeOf_lt_of_mem h'
    simp_wf
    omega

instance : BEq Rule := ⟨same⟩

end Rule

/-! ## Hashing -/

/-- Something that is fed into a hash. -/
inductive HashItem where
  | number (n : Int)
  | text (s : String)
  | word (w : UInt64)
deriving DecidableEq, Repr

namespace Path

/-- What a component feeds into a hash: its kind, and its name if it has one. The first kind is that
of a prefix, which no path has here. -/
def Component.hashItems : Component → List HashItem
  | .root => [.number 1]
  | .here => [.number 2]
  | .parent => [.number 3]
  | .name s => [.number 4, .text s]

/-- What a path feeds into a hash, component by component. -/
def hashItems (p : Path) : List HashItem := p.components.flatMap Component.hashItems

end Path

/-- What something that may be absent feeds into a hash. -/
def hashOption {α : Type} (items : α → List HashItem) : Option α → List HashItem
  | none => [.number 0]
  | some x => .number 1 :: items x

/-- What a list of texts feeds into a hash. -/
def hashTexts (texts : List String) : List HashItem := .number texts.length :: texts.map .text

/-- What the sources of a simple rule feed into a hash. -/
def Source.hashItems (s : Source) : List HashItem :=
  hashOption (fun r => [.text r.source]) s.regex ++ hashOption hashTexts s.values ++
    hashOption Path.hashItems s.file

/-- The number of an operator. -/
def Operator.number : Operator → Int
  | .union => 0
  | .intersection => 1
  | .subtract => 2

/-- The number of a kind. -/
def RuleKind.number (kind : RuleKind) : Int := all.idxOf kind

namespace Rule

mutual

/-- What a rule feeds into a hash. The rules of a composition are hashed one by one with a function
of its own. -/
def hashItems (inner : List HashItem → UInt64) : Rule → List HashItem
  | .simple attr s => .number (RuleKind.simple attr).number :: s.hashItems
  | .annotationData name value =>
    [.number RuleKind.annotationData.number, .text name.source, .text value.source]
  | .fragmentation index count =>
    [.number RuleKind.fragmentation.number, .number index.toInt, .number count.toInt]
  | .composition operator rules =>
    [.number RuleKind.composition.number, .number operator.number, .word (hashSum inner rules 0)]

/-- Add up the hashes of rules, modulo `2 ^ 64`. -/
def hashSum (inner : List HashItem → UInt64) : List Rule → UInt64 → UInt64
  | [], sum => sum
  | r :: rs, sum => hashSum inner rs (sum + inner (hashItems inner r))

end

end Rule

/-- The bytes of a hash item. -/
def HashItem.bytes : HashItem → List UInt8
  | .number n => (toString n).toUTF8.toList ++ [0xFF]
  | .text s => s.toUTF8.toList ++ [0xFF]
  | .word w => (List.range 8).map fun i => (w >>> (8 * i.toUInt64)).toUInt8

/-- A hash of items. -/
def HashItem.hash (items : List HashItem) : UInt64 := XXH64.hash 0 (items.flatMap HashItem.bytes)

/-- A hash of a rule; equal rules have equal hashes. -/
def Rule.hash (r : Rule) : UInt64 := HashItem.hash (r.hashItems HashItem.hash)

end TestSelection
