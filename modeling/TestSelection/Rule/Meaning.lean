import TestSelection.Filter.Compile
import TestSelection.Regex.Meaning

/-!
# What a rule says

`Rule.Holds cx t r` says that the rule `r` holds of the test `t`, read straight from the rule: there
is no filter in between. The context is needed for files of values only.
-/

namespace TestSelection

/-- A text holds a value on a line: without the white space around it, the line is the value. A
carriage return at the end of the line is white space. -/
def HoldsLine (text : String) (s : String) : Prop :=
  s ≠ "" ∧ ∃ line ∈ Text.pieces '\n' text.toList, s = String.ofList (Text.trim line)

/-- A regular expression matches all of a text. What this says of the expression that is written in
it is told by `Regex.holds_iff`. -/
def Regex.Holds (r : Regex) (s : String) : Prop := r.isMatch s = true

/-- A source takes a value: by its expression, by its list, or by a line of its file. -/
def Source.Takes (cx : Context) (source : Source) (s : String) : Prop :=
  (∃ r ∈ source.regex, r.Holds s) ∨ (∃ values ∈ source.values, s ∈ values) ∨
    ∃ file ∈ source.file, ∃ text, cx.readText file = .ok text ∧ HoldsLine text s

/-- The attribute of a test has a property. Of annotations, one has to have it. -/
def Attribute.HoldsOf (t : TestCase) (P : String → Prop) : Attribute → Prop
  | .className => P t.className
  | .qualifiedClass => P t.qualifiedClass
  | .package => P t.package
  | .qualifiedName => P t.qualifiedName
  | .method => P t.method
  | .annotationName => ∃ a ∈ t.annotations, P a.name

namespace Rule

mutual

/-- The rule holds of the test. -/
def Holds (cx : Context) (t : TestCase) : Rule → Prop
  | .simple attr source => attr.HoldsOf t (source.Takes cx)
  | .annotationData name value =>
    ∃ a ∈ t.annotations, name.Holds a.name ∧ ∃ v ∈ a.value, value.Holds v
  | .fragmentation index count =>
    (t.nameHash.toNat : Int) % count.toInt = index.toInt
  | .composition .union rules => SomeHolds cx t rules
  | .composition .intersection rules => AllHold cx t rules
  | .composition .subtract rules => ¬ SomeHolds cx t rules

/-- One of the rules holds. -/
def SomeHolds (cx : Context) (t : TestCase) : List Rule → Prop
  | [] => False
  | r :: rs => Holds cx t r ∨ SomeHolds cx t rs

/-- All rules hold. -/
def AllHold (cx : Context) (t : TestCase) : List Rule → Prop
  | [] => True
  | r :: rs => Holds cx t r ∧ AllHold cx t rs

end

end Rule

end TestSelection
