import TestSelection.Proofs.Pairing
import TestSelection.Rule.Meaning

/-!
# Compositions

Rules and filters are trees, whose inner nodes are compositions. This file has what every proof
about such trees starts from.

**Induction.** To show something of all rules, show it of the rules without parts, and of a
composition from its rules. The same goes for filters.

**Operators.** `Operator.Combines` says what an operator asks of a list: that some, all or none of
its items have a property. What a composition means, and what it accepts, is this notion applied
to the parts (`Rule.holds_composition`, `Filter.accepts_composition`). So a fact about
compositions is often a fact about `Operator.Combines` only, and is shown once for all operators;
the first is that the order of the items makes no difference (`Operator.combines_iff_of_paired`).
-/

namespace TestSelection

/-! ## Induction -/

/-- Induction on rules: a composition comes after its rules. -/
@[elab_as_elim, induction_eliminator]
theorem Rule.induct {motive : Rule → Prop}
    (simple : ∀ attr source, motive (.simple attr source))
    (annotationData : ∀ name value, motive (.annotationData name value))
    (fragmentation : ∀ index count, motive (.fragmentation index count))
    (composition : ∀ operator rules,
      (∀ r ∈ rules, motive r) → motive (.composition operator rules)) :
    ∀ r, motive r
  | .simple attr source => simple attr source
  | .annotationData name value => annotationData name value
  | .fragmentation index count => fragmentation index count
  | .composition operator rules => composition operator rules fun r _ =>
      Rule.induct simple annotationData fragmentation composition r

/-- Induction on filters: a composition comes after its filters. -/
@[elab_as_elim, induction_eliminator]
theorem Filter.induct {motive : Filter → Prop}
    (simple : ∀ attr matcher, motive (.simple attr matcher))
    (annotationData : ∀ name value, motive (.annotationData name value))
    (fragment : ∀ f, motive (.fragment f))
    (composition : ∀ operator filters,
      (∀ f ∈ filters, motive f) → motive (.composition operator filters)) :
    ∀ f, motive f
  | .simple attr matcher => simple attr matcher
  | .annotationData name value => annotationData name value
  | .fragment f => fragment f
  | .composition operator filters => composition operator filters fun f _ =>
      Filter.induct simple annotationData fragment composition f

/-! ## Operators -/

namespace Operator

variable {α β : Type}

/-- What an operator asks of a list: that some, all or none of its items have a property. -/
def Combines (operator : Operator) (P : α → Prop) (items : List α) : Prop :=
  match operator with
  | .union => ∃ x ∈ items, P x
  | .intersection => ∀ x ∈ items, P x
  | .subtract => ∀ x ∈ items, ¬ P x

/-- Lists paired by a property are the same to an operator: it asks neither for order, nor how often
an item occurs. -/
theorem combines_iff_of_paired (operator : Operator) {P : α → Prop} {Q : β → Prop}
    {as : List α} {bs : List β} (h : Paired (fun x y => P x ↔ Q y) as bs) :
    operator.Combines P as ↔ operator.Combines Q bs := by
  cases operator with
  | union => exact h.exists_iff
  | intersection => exact h.forall_iff
  | subtract =>
    obtain ⟨e, he⟩ := h
    exact Paired.forall_iff ⟨e, fun i => not_congr (he i)⟩

/-- Lists that agree item by item are the same to an operator. -/
theorem combines_iff_of_forall₂ (operator : Operator) {P : α → Prop} {Q : β → Prop}
    {as : List α} {bs : List β} (h : List.Forall₂ (fun a b => P a ↔ Q b) as bs) :
    operator.Combines P as ↔ operator.Combines Q bs :=
  operator.combines_iff_of_paired (.of_forall₂ h)

/-- Properties that agree on the items of a list are the same to an operator. -/
theorem combines_congr (operator : Operator) {P Q : α → Prop} {items : List α}
    (h : ∀ x ∈ items, P x ↔ Q x) : operator.Combines P items ↔ operator.Combines Q items :=
  operator.combines_iff_of_forall₂ (List.forall₂_same.2 h)

end Operator

/-! ## Rules -/

namespace Rule

variable {cx : Context} {t : TestCase}

theorem someHolds_iff {rules : List Rule} : SomeHolds cx t rules ↔ ∃ r ∈ rules, r.Holds cx t := by
  induction rules with
  | nil => simp [SomeHolds]
  | cons r rules ih => rw [SomeHolds, ih, List.exists_mem_cons_iff]

theorem allHold_iff {rules : List Rule} : AllHold cx t rules ↔ ∀ r ∈ rules, r.Holds cx t := by
  induction rules with
  | nil => simp [AllHold]
  | cons r rules ih => rw [AllHold, ih, List.forall_mem_cons]

/-- A composition holds if its operator combines the rules that hold. -/
theorem holds_composition {operator : Operator} {rules : List Rule} :
    (Rule.composition operator rules).Holds cx t ↔
      operator.Combines (fun r => r.Holds cx t) rules := by
  cases operator with
  | union => rw [Holds, someHolds_iff]; rfl
  | intersection => rw [Holds, allHold_iff]; rfl
  | subtract => rw [Holds, someHolds_iff]; simp [Operator.Combines]

end Rule

/-! ## Filters -/

namespace Filter

variable {t : TestCase}

theorem someAccepts_iff {filters : List Filter} :
    someAccepts filters t = true ↔ ∃ f ∈ filters, f.accepts t = true := by
  induction filters with
  | nil => simp [someAccepts]
  | cons f filters ih => rw [someAccepts, Bool.or_eq_true, ih, List.exists_mem_cons_iff]

theorem allAccept_iff {filters : List Filter} :
    allAccept filters t = true ↔ ∀ f ∈ filters, f.accepts t = true := by
  induction filters with
  | nil => simp [allAccept]
  | cons f filters ih => rw [allAccept, Bool.and_eq_true, ih, List.forall_mem_cons]

/-- A composition accepts a test if its operator combines the filters that do. -/
theorem accepts_composition {operator : Operator} {filters : List Filter} :
    (Filter.composition operator filters).accepts t = true ↔
      operator.Combines (fun f => f.accepts t = true) filters := by
  cases operator with
  | union => rw [accepts, someAccepts_iff]; rfl
  | intersection => rw [accepts, allAccept_iff]; rfl
  | subtract =>
    rw [accepts, Bool.not_eq_true', Bool.eq_false_iff, ne_eq, someAccepts_iff]
    simp [Operator.Combines]

end Filter

end TestSelection
