import TestSelection.Proofs.Regex.Denotation
import TestSelection.Proofs.Regex.Settled

/-!
# How deeply printed expressions nest

What is printed for an expression is read as a pattern, and the depth of this pattern can be told
from the expression: it is `Expr.patternDepth`, or `Expr.printedDepth` where options may be lost.
Texts, concatenations and alternations are printed in groups, so they count twice; repetitions and
captures count once.

Here are the definitions, and the depths of what the reader puts together: classes and levels.
-/

namespace TestSelection.Regex

open Unicode (CodeSet)

/-! ## Depth of expressions -/

namespace Expr

/-- The depth of patterns side by side, given the depth of each. One pattern stays as it is. -/
def joinedDepth : List Nat → Nat
  | [] => 0
  | [d] => d
  | ds => ds.foldr max 0 + 1

/-- The depth of a printed class. It has a single part if the set is a single range that is written
as one: two characters side by side are two parts. -/
def classDepth (s : CodeSet) : Nat :=
  match s.ranges with
  | [r] => if r.1 + 1 = r.2 then 2 else 1
  | _ => 2

/-- The depth of a printed condition. Some conditions need flags of their own. -/
def lookDepth : Look → Nat
  | .textStart | .textEnd => 0
  | .lineStart | .lineEnd | .lineStartCRLF | .lineEndCRLF => 1
  | .wordBoundary unicode | .notWordBoundary unicode | .wordStart unicode | .wordEnd unicode
  | .wordStartHalf unicode | .wordEndHalf unicode => if unicode then 0 else 1

mutual

/-- The depth of the pattern that is read for the printed expression, if no option is lost. -/
def patternDepth : Expr → Nat
  | .empty => 1
  | .text chars => if 1 < chars.length then 2 else 0
  | .set unicode s => if unicode || s.ranges.isEmpty then classDepth s else classDepth s + 1
  | .look l => lookDepth l
  | .repetition least greatest _ sub =>
    if least = 1 ∧ greatest = some 1 then patternDepth sub else patternDepth sub + 1
  | .capture _ _ sub => patternDepth sub + 1
  | .concat parts => joinedDepth (patternDepths parts) + 1
  | .alternation branches => joinedDepth (patternDepths branches) + 1

/-- The depths of the patterns that are read for printed expressions. -/
def patternDepths : List Expr → List Nat
  | [] => []
  | x :: xs => patternDepth x :: patternDepths xs

end

/-- The depth of the pattern that is read for the printed expression. -/
def printedDepth (x : Expr) : Nat := x.settled.patternDepth

theorem patternDepths_eq_map (xs : List Expr) : patternDepths xs = xs.map patternDepth := by
  induction xs with
  | nil => rfl
  | cons x xs ih => rw [patternDepths, ih, List.map_cons]

theorem joinedDepth_flat (chars : List Char) :
    joinedDepth (chars.map fun _ => 0) = if 1 < chars.length then 1 else 0 := by
  have hmax (chars : List Char) : (chars.map fun _ => 0).foldr max 0 = 0 := by
    induction chars with
    | nil => rfl
    | cons c cs ih => rw [List.map_cons, List.foldr_cons, ih, Nat.max_self]
  match chars with
  | [] => rfl
  | [c] => rfl
  | c :: c' :: cs =>
    rw [if_pos (by simp)]
    exact congrArg (· + 1) (hmax (c :: c' :: cs))

end Expr

/-! ## Depth of classes -/

theorem depth_ofReversed {items : List ClassItem} (h : ∀ i ∈ items, i.depth = 0) :
    (ClassItem.ofReversed items).depth = if 2 ≤ items.length then 1 else 0 := by
  have hflat (items : List ClassItem) (h : ∀ i ∈ items, i.depth = 0) :
      ClassItem.depthItems items = 0 := by
    induction items with
    | nil => rfl
    | cons i is ih =>
      rw [List.forall_mem_cons] at h
      rw [ClassItem.depthItems, h.1, ih h.2, Nat.max_self]
  match items with
  | [] => rfl
  | [i] => exact h i List.mem_cons_self
  | i :: i' :: is =>
    rw [ofReversed_eq_union (by simp), ClassItem.depth, if_pos (by simp), hflat]
    exact fun j hj => h j (List.mem_reverse.1 hj)

theorem depth_rangesClass (literal : Nat → Literal) {s : CodeSet} (hne : s.ranges ≠ []) :
    (rangesClass literal s.ranges).depth = Expr.classDepth s := by
  have hflat : ∀ i ∈ (s.ranges.flatMap (rangeItems literal)).reverse, i.depth = 0 := by
    intro i hi
    obtain ⟨r, -, hi⟩ := List.mem_flatMap.1 (List.mem_reverse.1 hi)
    unfold rangeItems at hi
    split_ifs at hi
    all_goals
      simp only [List.mem_cons, List.not_mem_nil, or_false] at hi
      rcases hi with rfl | rfl <;> rfl
  have hpos (r : Nat × Nat) : 1 ≤ (rangeItems literal r).length := by
    unfold rangeItems
    split_ifs <;> simp
  rw [rangesClass, Pattern.depth, ClassSet.depth, depth_ofReversed hflat, List.length_reverse,
    Expr.classDepth]
  cases h : s.ranges with
  | nil => exact absurd h hne
  | cons r rs =>
    cases rs with
    | nil =>
      simp only [List.flatMap_singleton, rangeItems]
      split_ifs <;> simp_all
    | cons r' rs =>
      have hmany : 2 ≤ ((r :: r' :: rs).flatMap (rangeItems literal)).length := by
        have hr := hpos r
        have hr' := hpos r'
        simp only [List.flatMap_cons, List.length_append]
        omega
      rw [if_pos hmany]

/-! ## Depth of a level -/

theorem depthList_eq (pats : List Pattern) :
    Pattern.depthList pats = (pats.map Pattern.depth).foldr max 0 := by
  induction pats with
  | nil => rfl
  | cons p ps ih => rw [Pattern.depthList, ih, List.map_cons, List.foldr_cons]

theorem depth_ofParts (pats : List Pattern) :
    (Pattern.ofParts pats.reverse).depth = Expr.joinedDepth (pats.map Pattern.depth) := by
  match pats with
  | [] => rfl
  | [x] => rfl
  | x :: y :: rest =>
    rw [Pattern.Denotes.ofParts_eq_concat (by simp), List.reverse_reverse, Pattern.depth,
      depthList_eq]
    rfl

theorem depth_level (p : Progress) : p.level.depth =
    Expr.joinedDepth ((p.branches.reverse ++ [Pattern.ofParts p.parts]).map Pattern.depth) := by
  unfold Progress.level
  split
  · next h =>
    rw [h]
    rfl
  · next h =>
    obtain ⟨b, bs, hbranches⟩ := List.exists_cons_of_ne_nil
      (List.reverse_ne_nil_iff.2 h)
    rw [Pattern.depth, depthList_eq, hbranches]
    cases bs <;> rfl

end TestSelection.Regex
