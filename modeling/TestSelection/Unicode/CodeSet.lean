/-!
# Sets of characters

A set of characters is a list of ranges of code points, in ascending order, disjoint and not
touching. Every operation keeps this form, so two equal sets have equal lists.

Surrogates are not characters. Where a complement would begin or end at a surrogate, it moves on to
the next character, and a range that is given for a set is cut back to the characters in it.
-/

namespace TestSelection.Unicode

/-- The largest code point. -/
def maxCode : Nat := 0x10FFFF

/-- The character after a code point, passing over the surrogates. -/
def succCode (c : Nat) : Nat := if c = 0xD7FF then 0xE000 else c + 1

/-- The character before a code point, passing over the surrogates. -/
def predCode (c : Nat) : Nat := if c = 0xE000 then 0xD7FF else c - 1

/-- A set of characters, as ranges with both ends in them. -/
structure CodeSet where
  ranges : List (Nat × Nat)
deriving DecidableEq, Repr, Inhabited

namespace CodeSet

/-! ## Membership -/

/-- Whether a code point lies in one of the ranges, which ascend. -/
def memRanges (c : Nat) : List (Nat × Nat) → Bool
  | [] => false
  | (lo, hi) :: rest => if c < lo then false else if c ≤ hi then true else memRanges c rest

/-- Whether a code point lies in the set. -/
def mem (s : CodeSet) (c : Nat) : Bool := memRanges c s.ranges

/-! ## Construction -/

def empty : CodeSet := ⟨[]⟩

def single (c : Nat) : CodeSet := ⟨[(c, c)]⟩

/-- All characters. -/
def all : CodeSet := ⟨[(0, maxCode)]⟩

/-- Join the range in hand with the ranges after it, which ascend by their lower ends, where they
overlap or touch. -/
def joinFrom (lo hi : Nat) : List (Nat × Nat) → List (Nat × Nat)
  | [] => [(lo, hi)]
  | (lo', hi') :: rest =>
    if lo' ≤ hi + 1 then joinFrom lo (max hi hi') rest else (lo, hi) :: joinFrom lo' hi' rest

/-- A range from its first character to its last, if it has any. -/
def clip? (r : Nat × Nat) : Option (Nat × Nat) :=
  let lo := if 0xD800 ≤ r.1 ∧ r.1 ≤ 0xDFFF then 0xE000 else r.1
  let hi := if 0xD800 ≤ r.2 ∧ r.2 ≤ 0xDFFF then 0xD7FF else min r.2 maxCode
  if lo ≤ hi then some (lo, hi) else none

/-- The set that a list of ranges covers, in any order. -/
def ofRanges (ranges : List (Nat × Nat)) : CodeSet :=
  let clipped := ranges.filterMap clip?
  match clipped.mergeSort (fun a b => a.1 < b.1 || (a.1 == b.1 && a.2 ≤ b.2)) with
  | [] => empty
  | (lo, hi) :: rest => ⟨joinFrom lo hi rest⟩

/-- The range between two code points, in either order. -/
def range (lo hi : Nat) : CodeSet := ⟨[(lo, hi)]⟩

/-! ## Algebra -/

def isEmpty (s : CodeSet) : Bool := s.ranges.isEmpty

/-- Whether the set has no character above U+007F. -/
def isAscii (s : CodeSet) : Bool := s.ranges.all fun r => r.2 ≤ 0x7F

def union (s t : CodeSet) : CodeSet :=
  if s.isEmpty then t else if t.isEmpty then s else ofRanges (s.ranges ++ t.ranges)

def unions (sets : List CodeSet) : CodeSet := ofRanges (sets.flatMap ranges)

/-- The gaps between the ranges, from a code point on. -/
def gapsFrom (start : Nat) : List (Nat × Nat) → List (Nat × Nat)
  | [] => if start ≤ maxCode then [(start, maxCode)] else []
  | (lo, hi) :: rest =>
    if start < lo then (start, predCode lo) :: gapsFrom (succCode hi) rest
    else gapsFrom (succCode hi) rest

/-- All characters that are not in the set. -/
def compl (s : CodeSet) : CodeSet := ⟨gapsFrom 0 s.ranges⟩

/-- The common parts of two lists of ranges; each step drops one range. -/
def interRanges : Nat → List (Nat × Nat) → List (Nat × Nat) → List (Nat × Nat)
  | 0, _, _ => []
  | _ + 1, [], _ => []
  | _ + 1, _, [] => []
  | steps + 1, (a, b) :: r, (c, d) :: s =>
    let rest :=
      if b < d then interRanges steps r ((c, d) :: s) else interRanges steps ((a, b) :: r) s
    if max a c ≤ min b d then (max a c, min b d) :: rest else rest

def inter (s t : CodeSet) : CodeSet :=
  ⟨interRanges (s.ranges.length + t.ranges.length) s.ranges t.ranges⟩

/-- The characters of the first set that are not in the second. -/
def diff (s t : CodeSet) : CodeSet := s.inter t.compl

/-- The characters in exactly one of the sets. -/
def symmDiff (s t : CodeSet) : CodeSet := (s.union t).diff (s.inter t)

end CodeSet

end TestSelection.Unicode
