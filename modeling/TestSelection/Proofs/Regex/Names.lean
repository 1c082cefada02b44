import Mathlib.Algebra.Order.BigOperators.Group.List
import Mathlib.Algebra.Order.Group.Multiset
import TestSelection.Proofs.Regex.Construction
import TestSelection.Regex.Expr.OfPattern

/-!
# The names of groups

A pattern names some of its groups. The names are counted here, but not put into an order: they are
a multiset. Building an expression loses names where equal beginnings of branches become one, and
never adds any (`names_ofPatternFrom`). So if the names of a pattern are distinct, then those of its
expression are.
-/

namespace TestSelection.Regex

/-! ## Names in expressions -/

namespace Expr

mutual

/-- The names of the groups of an expression. -/
def names : Expr → Multiset String
  | .repetition _ _ _ sub => names sub
  | .capture _ name sub => name.toList + names sub
  | .concat parts => namesOf parts
  | .alternation branches => namesOf branches
  | _ => 0

/-- The names in all of the expressions. -/
def namesOf : List Expr → Multiset String
  | [] => 0
  | x :: xs => names x + namesOf xs

end

theorem namesOf_eq_sum (xs : List Expr) : namesOf xs = (xs.map names).sum := by
  induction xs with
  | nil => rfl
  | cons x xs ih => rw [namesOf, ih, List.map_cons, List.sum_cons]

variable {x : Expr} {xs parts branches : List Expr}

theorem names_concat (parts : List Expr) : names (.concat parts) = (parts.map names).sum := by
  rw [names, namesOf_eq_sum]

theorem names_alternation (branches : List Expr) :
    names (.alternation branches) = (branches.map names).sum := by
  rw [names, namesOf_eq_sum]

/-! ### Concatenations -/

theorem sum_names_partsOf (x : Expr) : ((partsOf x).map names).sum = x.names := by
  cases x with
  | concat parts => rw [partsOf, names_concat]
  | _ => simp [partsOf]

theorem sum_names_prepend (x : Expr) (xs : List Expr) :
    ((prepend x xs).map names).sum = x.names + (xs.map names).sum := by
  unfold prepend
  split <;> simp [names]

theorem sum_names_flatMap {f : Expr → List Expr} (h : ∀ x, ((f x).map names).sum = x.names)
    (xs : List Expr) : ((xs.flatMap f).map names).sum = (xs.map names).sum := by
  induction xs with
  | nil => rfl
  | cons x xs ih =>
    rw [List.flatMap_cons, List.map_append, List.sum_append, h, ih, List.map_cons, List.sum_cons]

theorem names_ofConcat (parts : List Expr) : (ofConcat parts).names = (parts.map names).sum := by
  have hjoined (xs : List Expr) : ((xs.foldr prepend []).map names).sum = (xs.map names).sum := by
    induction xs with
    | nil => rfl
    | cons x xs ih =>
      rw [List.foldr_cons, sum_names_prepend, ih, List.map_cons, List.sum_cons]
  rw [← sum_names_flatMap sum_names_partsOf, ← hjoined, ofConcat]
  split
  · next h => rw [h]; rfl
  · next h => rw [h, List.map_singleton, List.sum_singleton]
  · rw [names_concat]

/-! ### Repetitions and sets -/

theorem names_ofSet (unicode : Bool) (s : Unicode.CodeSet) : (ofSet unicode s).names = 0 := by
  unfold ofSet
  split
  · rfl
  · split_ifs <;> rfl
  · rfl

theorem names_ofRepetition_le (least : Nat) (greatest : Option Nat) (greedy : Bool) (sub : Expr) :
    (ofRepetition least greatest greedy sub).names ≤ sub.names := by
  simp only [ofRepetition]
  split_ifs
  all_goals first | exact Multiset.zero_le _ | exact le_rfl

/-! ### Alternations -/

theorem sum_names_branchesOf (x : Expr) : ((branchesOf x).map names).sum = x.names := by
  cases x with
  | alternation branches => rw [branchesOf, names_alternation]
  | _ => simp [branchesOf]

theorem names_dropParts_le (n : Nat) (x : Expr) : (dropParts n x).names ≤ x.names := by
  cases x with
  | concat parts =>
    have hsplit := List.sum_take_add_sum_drop (parts.map names) n
    rw [dropParts, names_ofConcat, names_concat, ← hsplit, List.map_drop]
    exact Multiset.le_add_left _ _
  | _ => exact le_rfl

/-- Taking a common start out of the branches keeps it once. -/
theorem names_common_le {start : List Expr} (hne : branches ≠ [])
    (hstart : ∀ x ∈ branches, ∃ parts, x = .concat parts ∧ start <+: parts) :
    (start.map names).sum + ((branches.map (dropParts start.length)).map names).sum ≤
      (branches.map names).sum := by
  obtain ⟨b, bs, rfl⟩ := List.exists_cons_of_ne_nil hne
  obtain ⟨_, rfl, rest, rfl⟩ := hstart b List.mem_cons_self
  have hrest : ((bs.map (dropParts start.length)).map names).sum ≤ (bs.map names).sum := by
    rw [List.map_map]
    exact List.sum_le_sum fun x _ => names_dropParts_le _ x
  rw [List.map_cons, List.map_cons, List.sum_cons, List.map_cons, List.sum_cons, dropParts,
    names_ofConcat, names_concat, List.drop_left, List.map_append, List.sum_append, add_assoc]
  gcongr

theorem names_ofBranches_le (steps : Nat) (branches : List Expr) :
    (ofBranches steps branches).names ≤ (branches.map names).sum := by
  induction steps generalizing branches with
  | zero =>
    match branches with
    | [] => exact Multiset.zero_le _
    | [x] => simp [ofBranches]
    | x :: y :: rest => exact (names_alternation _).le
  | succ steps ih =>
    match branches with
    | [] => exact Multiset.zero_le _
    | [x] => simp [ofBranches]
    | x :: y :: rest =>
      have hne : x :: y :: rest ≠ [] := List.cons_ne_nil _ _
      rw [ofBranches]
      · generalize x :: y :: rest = branches at hne
        split
        · exact (names_ofSet _ _).trans_le (Multiset.zero_le _)
        · split
          · exact (names_ofSet _ _).trans_le (Multiset.zero_le _)
          · split
            · exact (names_alternation branches).le
            · next hstart =>
              have hrests := ih ((branches.map (dropParts (commonStart branches).length)).flatMap
                branchesOf)
              rw [sum_names_flatMap sum_names_branchesOf] at hrests
              refine le_trans ?_ (names_common_le hne (begins_with_commonStart hstart))
              rw [names_ofConcat, List.map_append, List.sum_append, List.map_singleton,
                List.sum_singleton]
              gcongr
      · exact hne
      · simp

theorem names_ofAlternation_le (branches : List Expr) :
    (ofAlternation branches).names ≤ (branches.map names).sum := by
  rw [← sum_names_flatMap sum_names_branchesOf]
  exact names_ofBranches_le _ _

end Expr

/-! ## Names in patterns -/

/-- The name of a group, if it has one. -/
def GroupKind.names : GroupKind → Multiset String
  | .capture _ name => name.toList
  | .flags _ => 0

mutual

/-- The names of the groups of a pattern. -/
def Pattern.names : Pattern → Multiset String
  | .repetition _ _ _ sub => sub.names
  | .group kind sub => kind.names + sub.names
  | .alternation branches => Pattern.namesOf branches
  | .concat parts => Pattern.namesOf parts
  | _ => 0

/-- The names in all of the patterns. -/
def Pattern.namesOf : List Pattern → Multiset String
  | [] => 0
  | p :: ps => p.names + Pattern.namesOf ps

end

theorem Pattern.namesOf_eq_sum (pats : List Pattern) : namesOf pats = (pats.map names).sum := by
  induction pats with
  | nil => rfl
  | cons p ps ih => rw [namesOf, ih, List.map_cons, List.sum_cons]

theorem Pattern.names_concat (parts : List Pattern) :
    (Pattern.concat parts).names = (parts.map names).sum := by
  rw [names, namesOf_eq_sum]

theorem Pattern.names_alternation (branches : List Pattern) :
    (Pattern.alternation branches).names = (branches.map names).sum := by
  rw [names, namesOf_eq_sum]

theorem Pattern.sum_names_reverse (pats : List Pattern) :
    (pats.reverse.map names).sum = (pats.map names).sum :=
  ((List.reverse_perm pats).map names).sum_eq

theorem Pattern.names_ofParts (parts : List Pattern) :
    (ofParts parts).names = (parts.map names).sum := by
  match parts with
  | [] => rfl
  | [x] => rw [ofParts, List.map_singleton, List.sum_singleton]
  | x :: y :: rest => rw [← sum_names_reverse, ← names_concat]; rfl

/-- The names of the level in hand. -/
theorem Progress.names_level (p : Progress) :
    p.level.names = (p.parts.map Pattern.names).sum + (p.branches.map Pattern.names).sum := by
  unfold Progress.level
  split
  · next h => rw [h, Pattern.names_ofParts, List.map_nil, List.sum_nil, add_zero]
  · rw [Pattern.names_alternation, List.map_append, List.sum_append, Pattern.sum_names_reverse,
      List.map_singleton, List.sum_singleton, Pattern.names_ofParts, add_comm]

/-! ## Names in the expressions of patterns -/

theorem Flags.names_literal {flags : Flags} {l : Literal} {x : Expr}
    (h : flags.literal l = .ok x) : x.names = 0 := by
  obtain ⟨c, -, hrest⟩ := bind_eq_ok_iff.1 h
  dsimp only at hrest
  split_ifs at hrest
  · cases hrest
    rfl
  · cases hrest
    exact Expr.names_ofSet _ _

theorem Flags.names_dot {flags : Flags} {x : Expr} (h : flags.dot = .ok x) : x.names = 0 := by
  unfold Flags.dot at h
  split_ifs at h
  all_goals
    cases h
    exact Expr.names_ofSet _ _

mutual

/-- The expression of a pattern has no names but those of the pattern. -/
theorem names_ofPatternFrom : ∀ (pat : Pattern) {flags flags' : Flags} {x : Expr},
    Expr.ofPatternFrom flags pat = .ok (x, flags') → x.names ≤ pat.names
  | .empty, _, _, _, h => by
    cases h
    exact le_rfl
  | .flags items, _, _, _, h => by
    cases h
    exact le_rfl
  | .literal l, _, _, _, h => by
    obtain ⟨x, hx, heq⟩ := bind_eq_ok_iff.1 h
    cases heq
    exact (Flags.names_literal hx).le
  | .dot, _, _, _, h => by
    obtain ⟨x, hx, heq⟩ := bind_eq_ok_iff.1 h
    cases heq
    exact (Flags.names_dot hx).le
  | .assertion a, _, _, _, h => by
    cases h
    exact le_rfl
  | .property name negated, _, _, _, h => by
    obtain ⟨s, -, heq⟩ := bind_eq_ok_iff.1 h
    cases heq
    exact (Expr.names_ofSet _ s).le
  | .perl kind negated, _, _, _, h => by
    obtain ⟨s, -, heq⟩ := bind_eq_ok_iff.1 h
    cases heq
    exact (Expr.names_ofSet _ s).le
  | .bracketed negated content, _, _, _, h => by
    obtain ⟨t, -, hrest⟩ := bind_eq_ok_iff.1 h
    obtain ⟨s, -, heq⟩ := bind_eq_ok_iff.1 hrest
    cases heq
    exact (Expr.names_ofSet _ s).le
  | .repetition least greatest greedy sub, _, _, _, h => by
    obtain ⟨⟨x, flags⟩, hx, heq⟩ := bind_eq_ok_iff.1 h
    cases heq
    exact (Expr.names_ofRepetition_le _ _ _ x).trans (names_ofPatternFrom sub hx)
  | .group (.capture index name) sub, _, _, _, h => by
    obtain ⟨⟨x, flags⟩, hx, heq⟩ := bind_eq_ok_iff.1 h
    cases heq
    exact add_le_add_right (names_ofPatternFrom sub hx) _
  | .group (.flags items) sub, _, _, _, h => by
    obtain ⟨⟨x, flags⟩, hx, heq⟩ := bind_eq_ok_iff.1 h
    cases heq
    exact (names_ofPatternFrom sub hx).trans (Multiset.le_add_left _ _)
  | .alternation branches, _, _, _, h => by
    obtain ⟨⟨xs, flags⟩, hxs, heq⟩ := bind_eq_ok_iff.1 h
    cases heq
    exact (Expr.names_ofAlternation_le xs).trans (names_ofPatternList branches hxs)
  | .concat parts, _, _, _, h => by
    obtain ⟨⟨xs, flags⟩, hxs, heq⟩ := bind_eq_ok_iff.1 h
    cases heq
    exact (Expr.names_ofConcat xs).trans_le (names_ofPatternList parts hxs)

theorem names_ofPatternList : ∀ (pats : List Pattern) {flags flags' : Flags} {xs : List Expr},
    Expr.ofPatternList flags pats = .ok (xs, flags') →
      (xs.map Expr.names).sum ≤ Pattern.namesOf pats
  | [], _, _, _, h => by
    cases h
    exact le_rfl
  | pat :: pats, _, _, _, h => by
    obtain ⟨⟨x, flags⟩, hx, hrest⟩ := bind_eq_ok_iff.1 h
    obtain ⟨⟨xs, flags'⟩, hxs, heq⟩ := bind_eq_ok_iff.1 hrest
    cases heq
    rw [List.map_cons, List.sum_cons]
    exact add_le_add (names_ofPatternFrom pat hx) (names_ofPatternList pats hxs)

end

/-! ## Well-formed expressions -/

/-- The expression is as expressions of patterns are, and the names of its groups are distinct. -/
structure Expr.WellFormed (x : Expr) : Prop where
  sound : x.Sound
  names : x.names.Nodup

end TestSelection.Regex
