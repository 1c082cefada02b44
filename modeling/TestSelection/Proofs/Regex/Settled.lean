import TestSelection.Proofs.Regex.Names

/-!
# Options that are lost

A repetition operator is followed by a question mark if it prefers few, and an option is a question
mark itself. So the question mark of an option that follows another operator directly is taken for
a mark of that operator, and the option is lost: `(?:a+)?` is printed as `a+?`. A second question
mark is an option again.

`Expr.endsOpen` tells whether an operator at the end of a printed expression would take a question
mark, and `Expr.settled` is the expression without the options that are lost.
-/

namespace TestSelection.Regex.Expr

/-- The printed form ends with an operator to which a question mark would belong. -/
def endsOpen : Expr → Bool
  | .repetition 1 (some 1) _ sub => endsOpen sub
  | .repetition 0 (some 1) greedy sub => greedy != endsOpen sub
  | .repetition least greatest greedy _ => greedy || greatest == some least
  | _ => false

mutual

/-- The expression without the options that are lost when it is printed: those whose question mark
belongs to the operator before it. -/
def settled : Expr → Expr
  | .repetition least greatest greedy sub =>
    if least = 0 ∧ greatest = some 1 ∧ greedy = true ∧ endsOpen sub = true then settled sub
    else .repetition least greatest greedy (settled sub)
  | .capture index name sub => .capture index name (settled sub)
  | .concat parts => .concat (settledAll parts)
  | .alternation branches => .alternation (settledAll branches)
  | x => x

/-- Expressions without the options that are lost. -/
def settledAll : List Expr → List Expr
  | [] => []
  | x :: xs => settled x :: settledAll xs

end

theorem settledAll_eq_map (xs : List Expr) : settledAll xs = xs.map settled := by
  induction xs with
  | nil => rfl
  | cons x xs ih => rw [settledAll, ih, List.map_cons]

theorem settled_concat (parts : List Expr) :
    settled (.concat parts) = .concat (parts.map settled) := by
  rw [settled, settledAll_eq_map]

theorem settled_alternation (branches : List Expr) :
    settled (.alternation branches) = .alternation (branches.map settled) := by
  rw [settled, settledAll_eq_map]

theorem keepsText_settled : KeepsText settled := ⟨rfl, fun _ => rfl, settled_concat⟩

/-- The options that are lost have no names of their own. -/
@[simp] theorem names_settled (x : Expr) : x.settled.names = x.names := by
  induction x with
  | repetition least greatest greedy sub ih =>
    rw [settled]
    split_ifs
    · exact ih
    · exact ih
  | capture index name sub ih => exact congrArg (_ + ·) ih
  | concat parts ih =>
    rw [settled_concat, names_concat, names_concat, List.map_map]
    exact congrArg List.sum (List.map_congr_left ih)
  | alternation branches ih =>
    rw [settled_alternation, names_alternation, names_alternation, List.map_map]
    exact congrArg List.sum (List.map_congr_left ih)
  | _ => rfl

theorem sum_names_settled (xs : List Expr) :
    ((xs.map settled).map names).sum = (xs.map names).sum := by
  simp only [List.map_map, Function.comp_def, names_settled]

theorem endsOpen_option (greedy : Bool) (sub : Expr) :
    endsOpen (.repetition 0 (some 1) greedy sub) = (greedy != endsOpen sub) := rfl

/-- If its mark is its own, an operator takes another one unless it has one already. -/
theorem endsOpen_repetition {least : Nat} {greatest : Option Nat} {greedy : Bool} {sub : Expr}
    (honce : ¬ (least = 1 ∧ greatest = some 1))
    (hown : least = 0 ∧ greatest = some 1 → endsOpen sub = false) :
    endsOpen (.repetition least greatest greedy sub) = (greedy || greatest == some least) := by
  by_cases hoption : least = 0 ∧ greatest = some 1
  · obtain ⟨rfl, rfl⟩ := hoption
    rw [endsOpen_option, hown ⟨rfl, rfl⟩]
    simp
  · rw [endsOpen]
    · rintro rfl rfl
      exact honce ⟨rfl, rfl⟩
    · rintro rfl rfl
      exact hoption ⟨rfl, rfl⟩

end TestSelection.Regex.Expr
