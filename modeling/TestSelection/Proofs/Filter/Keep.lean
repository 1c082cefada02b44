import TestSelection.Proofs.Composition

/-!
# Lists of tests, and one test after the other

A filter can be given a list as a whole. A composition then builds sets of tests, one filter after
the other, and looks up the tests of the list in the last set. This file shows that nothing comes
of it but what the filter says about each test.

**Theorem (`keep_and_drop`).** What a filter keeps of a list are the occurrences of tests that it
accepts, in order, and what it drops are the others.

**The sets.** One filter changes the set that was found before it by `Operator.Step`. After all
filters of a composition the set has what `Operator.After` says, whatever it had at the start
(`mem_combineAll`); and from the set that each operator does start with, this is what the operator
combines (`mem_combineAll_start`).
-/

namespace TestSelection

/-! ## Operators, one item after the other -/

namespace Operator

variable {α : Type} {operator : Operator} {found : Prop} {P : α → Prop}

/-- What an operator makes of what was found, and of the next item. -/
def Step (operator : Operator) (found next : Prop) : Prop :=
  match operator with
  | .union => found ∨ next
  | .intersection => found ∧ next
  | .subtract => found ∧ ¬ next

/-- What an operator makes of what was found, and of all items of a list. -/
def After (operator : Operator) (found : Prop) (P : α → Prop) (items : List α) : Prop :=
  match operator with
  | .union => found ∨ ∃ x ∈ items, P x
  | .intersection => found ∧ ∀ x ∈ items, P x
  | .subtract => found ∧ ∀ x ∈ items, ¬ P x

theorem after_nil : operator.After found P [] ↔ found := by
  cases operator <;> simp [After]

theorem after_cons {x : α} {items : List α} :
    operator.After found P (x :: items) ↔ operator.After (operator.Step found (P x)) P items := by
  cases operator with
  | union => simp [After, Step, or_assoc]
  | intersection => simp [After, Step, and_assoc]
  | subtract => simp [After, Step, and_assoc]

/-- A union starts with nothing, and the other operators with everything. -/
theorem after_iff_combines {items : List α} (h : found ↔ operator ≠ .union) :
    operator.After found P items ↔ operator.Combines P items := by
  cases operator with
  | union => simp [After, Combines, h]
  | intersection => simp [After, Combines, h]
  | subtract => simp [After, Combines, h]

end Operator

namespace Filter

variable {tests found kept : List TestCase} {t : TestCase} {operator : Operator}

/-! ## The sets of a composition -/

/-- What one filter does to the set found before it. -/
theorem mem_combine : t ∈ combine operator found kept ↔ operator.Step (t ∈ found) (t ∈ kept) := by
  cases operator with
  | union => rw [combine, List.mem_append, Operator.Step]
  | intersection => rw [combine, List.mem_filter, List.contains_iff_mem, Operator.Step]
  | subtract =>
    rw [combine, List.mem_filter, Bool.not_eq_true', Bool.eq_false_iff, ne_eq,
      List.contains_iff_mem, Operator.Step]

/-- What all filters do to the set found before them. -/
theorem mem_combineAll {filters : List Filter} :
    t ∈ combineAll operator tests filters found ↔
      operator.After (t ∈ found) (fun f => t ∈ f.keep tests) filters := by
  induction filters generalizing found with
  | nil => rw [combineAll, Operator.after_nil]
  | cons f filters ih => rw [combineAll, ih, mem_combine, Operator.after_cons]

theorem mem_start (ht : t ∈ tests) : t ∈ start operator tests ↔ operator ≠ .union := by
  cases operator <;> simp [start, ht]

/-- The set of a composition has those tests of the list for which its operator combines what the
filters keep. -/
theorem mem_combineAll_start {filters : List Filter} (ht : t ∈ tests) :
    t ∈ combineAll operator tests filters (start operator tests) ↔
      operator.Combines (fun f => t ∈ f.keep tests) filters := by
  rw [mem_combineAll, Operator.after_iff_combines (mem_start ht)]

/-! ## What is kept and what is dropped -/

/-- A filter keeps the tests that it accepts. -/
theorem keep_eq_filter (f : Filter) (tests : List TestCase) :
    f.keep tests = tests.filter f.accepts := by
  induction f with
  | simple attr matcher => rw [keep]
  | annotationData name value => rw [keep]
  | fragment b => rw [keep]
  | composition operator filters ih =>
    rw [keep]
    refine List.filter_congr fun t ht => ?_
    -- The tests that a part keeps are the same whether the list or the test is looked at.
    have hpart : ∀ f ∈ filters, t ∈ f.keep tests ↔ f.accepts t = true := fun f hf => by
      rw [ih f hf, List.mem_filter, and_iff_right ht]
    rw [Bool.eq_iff_iff, List.contains_iff_mem, mem_combineAll_start ht, accepts_composition]
    exact operator.combines_congr hpart

/-- For the tests of a list, to be kept is to be accepted. -/
theorem contains_keep (f : Filter) (ht : t ∈ tests) :
    (f.keep tests).contains t = f.accepts t := by
  rw [Bool.eq_iff_iff, List.contains_iff_mem, keep_eq_filter, List.mem_filter, and_iff_right ht]

/-- A filter drops the tests that it does not accept. -/
theorem drop_eq_filter (f : Filter) (tests : List TestCase) :
    f.drop tests = tests.filter fun t => !f.accepts t := by
  rw [drop]
  exact List.filter_congr fun t ht => by rw [contains_keep f ht]

/-- **Nothing is kept or dropped but what the filter says of each test.** Each occurrence of a test
is in one of the two lists, and in one only. -/
theorem keep_and_drop (f : Filter) (tests : List TestCase) :
    f.keep tests = tests.filter f.accepts ∧
      f.drop tests = tests.filter (fun t => !f.accepts t) ∧
      (f.keep tests ++ f.drop tests).Perm tests ∧
      (f.keep tests).Disjoint (f.drop tests) := by
  rw [keep_eq_filter, drop_eq_filter]
  refine ⟨rfl, rfl, List.filter_append_perm f.accepts tests, ?_⟩
  intro t hkept hdropped
  simp only [List.mem_filter] at hkept hdropped
  simp [hkept.2] at hdropped

end Filter

end TestSelection
