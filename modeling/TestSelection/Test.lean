import TestSelection.Hash.XXH64

/-!
# Tests

A test has a package, a class and a method. Its qualified name joins the three, and is what a test
is known by. Annotations are carried along and are no part of the name.

Tests with the same qualified name always fall into the same bucket, however many buckets there
are.
-/

namespace TestSelection

/-- An annotation of a test, with a value or without. -/
structure Annotation where
  name : String
  value : Option String
deriving DecidableEq, Repr, Inhabited

/-- A test. The package may be empty. -/
structure TestCase where
  package : String
  className : String
  method : String
  annotations : List Annotation
deriving DecidableEq, Repr, Inhabited

/-! ## Text -/

/-- An annotation in text, with its value in brackets. -/
def Annotation.text (a : Annotation) : String :=
  match a.value with
  | some value => "@" ++ a.name ++ "(" ++ value ++ ")"
  | none => "@" ++ a.name

namespace TestCase

/-- A test without annotations. -/
def ofNames (package className method : String) : TestCase := ⟨package, className, method, []⟩

/-- Add an annotation after those that are there. -/
def annotate (t : TestCase) (a : Annotation) : TestCase :=
  { t with annotations := t.annotations ++ [a] }

/-- The name of the class with its package, if that is not empty. -/
def qualifiedClass (t : TestCase) : String :=
  if t.package = "" then t.className else t.package ++ "." ++ t.className

/-- The name of the class, and the method. -/
def qualifiedName (t : TestCase) : String := t.qualifiedClass ++ "#" ++ t.method

/-- A test in text, which is its qualified name. -/
def text (t : TestCase) : String :=
  (if t.package = "" then "" else t.package ++ ".") ++ (t.className ++ "#" ++ t.method)

/-! ## Buckets -/

/-- The hash of the qualified name. -/
def nameHash (t : TestCase) : UInt64 := XXH64.hash 0 t.qualifiedName.toUTF8.toList

/-- The bucket of a test out of a number of buckets; without buckets there is none. -/
def bucket? (t : TestCase) (count : UInt64) : Option UInt64 :=
  if count = 0 then none else some (t.nameHash % count)

end TestCase

/-! ## Order -/

/-- Annotations are ordered by name, and then those without a value come first. -/
instance : Ord Annotation where
  compare a b := (compare a.name b.name).then (compare a.value b.value)

/-- Compare lists item by item; a list comes after its beginnings. -/
def compareItems {α : Type} [Ord α] : List α → List α → Ordering
  | [], [] => .eq
  | [], _ :: _ => .lt
  | _ :: _, [] => .gt
  | a :: as, b :: bs => (compare a b).then (compareItems as bs)

/-- Tests are ordered by package, class, method and annotations. -/
instance : Ord TestCase where
  compare a b :=
    (compare a.package b.package).then <|
      (compare a.className b.className).then <|
        (compare a.method b.method).then (compareItems a.annotations b.annotations)

end TestSelection
