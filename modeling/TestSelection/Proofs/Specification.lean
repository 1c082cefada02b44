import TestSelection.Proofs.Results
import TestSelection.Rule

/-!
# Places in a specification

A rule of a specification stands in one of the two lists, at a number that counts from zero. The
places are in order: the allowlist comes first, and each list goes from front to back.

`Specification.rules` goes through the rules in this order (`pairwise_rules`), so the first of its
entries that fails a check is at the first place at which a rule does (`firstNot_rules_iff`). Every
function that goes through `rules` and stops at a failure is taken apart with that.
-/

namespace TestSelection.Specification

/-- The rules of a list. -/
def held (s : Specification) : RuleList → List Rule
  | .allowlist => s.allowlist
  | .blocklist => s.blocklist

/-- One place comes before another. -/
def Before : RuleList × Nat → RuleList × Nat → Prop
  | (.allowlist, i), (.allowlist, j) => i < j
  | (.allowlist, _), (.blocklist, _) => True
  | (.blocklist, _), (.allowlist, _) => False
  | (.blocklist, i), (.blocklist, j) => i < j

/-- The first rule of a specification that has not got a property, and its place. -/
def FirstAt (P : Rule → Prop) (s : Specification) (list : RuleList) (index : Nat) (r : Rule) :
    Prop :=
  (s.held list)[index]? = some r ∧ ¬ P r ∧
    ∀ list' index' r', Before (list', index') (list, index) →
      (s.held list')[index']? = some r' → P r'

variable {s : Specification} {P : Rule → Prop}

/-! ## The order of places -/

theorem before_irrefl (p : RuleList × Nat) : ¬ Before p p := by
  obtain ⟨list, i⟩ := p
  cases list with
  | allowlist => exact Nat.lt_irrefl i
  | blocklist => exact Nat.lt_irrefl i

theorem before_asymm (p q : RuleList × Nat) (h : Before p q) : ¬ Before q p := by
  obtain ⟨list, i⟩ := p
  obtain ⟨list', j⟩ := q
  cases list with
  | allowlist =>
    cases list' with
    | allowlist => exact Nat.lt_asymm h
    | blocklist => exact id
  | blocklist =>
    cases list' with
    | allowlist => exact absurd h id
    | blocklist => exact Nat.lt_asymm h

/-- Of two places one comes before the other, unless they are the same. -/
theorem before_trichotomy (p q : RuleList × Nat) : Before p q ∨ p = q ∨ Before q p := by
  obtain ⟨list, i⟩ := p
  obtain ⟨list', j⟩ := q
  have hnat := Nat.lt_trichotomy i j
  cases list with
  | allowlist =>
    cases list' with
    | allowlist => simpa [Before] using hnat
    | blocklist => exact .inl trivial
  | blocklist =>
    cases list' with
    | allowlist => exact .inr (.inr trivial)
    | blocklist => simpa [Before] using hnat

/-! ## The rules in order -/

theorem mem_rules_iff {list : RuleList} {index : Nat} {r : Rule} :
    (list, index, r) ∈ s.rules ↔ (s.held list)[index]? = some r := by
  cases list <;> simp [rules, held, List.mem_zipIdx_iff_getElem?]

/-- The numbers of the items of a list ascend. -/
theorem pairwise_zipIdx (rules : List Rule) (start : Nat) :
    (rules.zipIdx start).Pairwise fun x y => x.2 < y.2 := by
  induction rules generalizing start with
  | nil => exact .nil
  | cons r rules ih =>
    rw [List.zipIdx_cons]
    exact .cons (fun x hx => List.le_snd_of_mem_zipIdx hx) (ih (start + 1))

theorem pairwise_rules (s : Specification) :
    s.rules.Pairwise fun x y => Before (x.1, x.2.1) (y.1, y.2.1) := by
  unfold rules
  refine List.pairwise_append.2 ⟨?_, ?_, ?_⟩
  · exact List.pairwise_map.2 (pairwise_zipIdx s.allowlist 0)
  · exact List.pairwise_map.2 (pairwise_zipIdx s.blocklist 0)
  · intro x hx y hy
    obtain ⟨_, -, rfl⟩ := List.mem_map.1 hx
    obtain ⟨_, -, rfl⟩ := List.mem_map.1 hy
    exact trivial

/-- The first entry without a property is the first rule without it. -/
theorem firstNot_rules_iff {list : RuleList} {index : Nat} {r : Rule} :
    FirstNot (fun x : RuleList × Nat × Rule => P x.2.2) s.rules (list, index, r) ↔
      s.FirstAt P list index r := by
  rw [firstNot_iff_of_pairwise s.pairwise_rules (fun x => before_irrefl _)
    (fun x y => before_asymm _ _), mem_rules_iff, FirstAt]
  refine and_congr_right fun _ => and_comm.trans (and_congr_right fun _ => ?_)
  constructor
  · intro h list' index' r' hbefore hr'
    exact h (list', index', r') (mem_rules_iff.2 hr') hbefore
  · rintro h ⟨list', index', r'⟩ hmem hbefore
    exact h list' index' r' hbefore (mem_rules_iff.1 hmem)

theorem mem_of_held {list : RuleList} {index : Nat} {r : Rule}
    (h : (s.held list)[index]? = some r) : r ∈ s.allowlist ++ s.blocklist := by
  have hr : r ∈ s.held list := List.mem_of_getElem? h
  cases list with
  | allowlist => exact List.mem_append_left _ hr
  | blocklist => exact List.mem_append_right _ hr

/-- Properties that agree on the rules of a specification have the same first rule. -/
theorem firstAt_congr {Q : Rule → Prop} (h : ∀ r ∈ s.allowlist ++ s.blocklist, P r ↔ Q r)
    {list : RuleList} {index : Nat} {r : Rule} :
    s.FirstAt P list index r ↔ s.FirstAt Q list index r := by
  refine and_congr_right fun hr => and_congr (not_congr (h r (mem_of_held hr))) ?_
  constructor
  · intro hbefore list' index' r' hlt hr'
    exact (h r' (mem_of_held hr')).1 (hbefore list' index' r' hlt hr')
  · intro hbefore list' index' r' hlt hr'
    exact (h r' (mem_of_held hr')).2 (hbefore list' index' r' hlt hr')

/-- A property of all entries is one of the rules of both lists. -/
theorem forall_rules_iff : (∀ x ∈ s.rules, P x.2.2) ↔ ∀ r ∈ s.allowlist ++ s.blocklist, P r := by
  rw [List.forall_mem_append]
  constructor
  · intro h
    have hheld (list : RuleList) (r : Rule) (hr : r ∈ s.held list) : P r := by
      obtain ⟨index, hindex⟩ := List.mem_iff_getElem?.1 hr
      exact h (list, index, r) (mem_rules_iff.2 hindex)
    exact ⟨hheld .allowlist, hheld .blocklist⟩
  · rintro ⟨hallow, hblock⟩ ⟨list, index, r⟩ hmem
    rcases List.mem_append.1 (mem_of_held (mem_rules_iff.1 hmem)) with hr | hr
    · exact hallow r hr
    · exact hblock r hr

end TestSelection.Specification
