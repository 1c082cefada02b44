import TestSelection.Proofs.Json.Reading
import TestSelection.Test.Json

/-!
# Tests that were written

Annotations, tests and test lists come back from what is written for them, all strings included. It
makes no difference whether the reader works on the text or on a tree that was read as a whole
(`Manner`). A list of annotations that is empty and a value that is absent are not written, and are
what a reader takes for a field that is missing.
-/

namespace TestSelection

open Json (Document Fault Layout Manner Tree)

variable {manner : Manner}

/-! ## Annotations -/

namespace Annotation

variable (a : Annotation)

/-- What an annotation holds. -/
def held (a : Annotation) : (f : Field) → f.Holds
  | .name => a.name
  | .value => a.value

/-- The fields that are written. -/
def present (a : Annotation) : List Field :=
  match a.value with
  | some _ => [.name, .value]
  | none => [.name]

/-- What is written for a field, if it is written. -/
def heldValue (a : Annotation) : Field → Value
  | .name => .string a.name
  | .value => .string (a.value.getD "")

theorem toValue_eq :
    a.toValue = .table (a.present.map fun f => (record.name f, a.heldValue f)) := by
  obtain ⟨name, value⟩ := a
  cases value <;> rfl

theorem nodup_present : a.present.Nodup := by
  obtain ⟨name, value⟩ := a
  cases value <;> simp [present]

theorem readField_heldValue {f : Field} (hf : f ∈ a.present) :
    readField f (Tree.ofValue (a.heldValue f)) = .ok (a.held f) := by
  obtain ⟨name, value⟩ := a
  cases f with
  | name => rfl
  | value =>
    cases value with
    | none => simp [present] at hf
    | some value => rfl

theorem ofTree_toValue : ofTree manner (Tree.ofValue a.toValue) = .ok a := by
  have hname (f : Field) : record.field? (record.name f) = some f := by cases f <;> rfl
  have hpresent : .name ∈ a.present := by
    unfold present
    split <;> simp
  have habsent (h : .value ∉ a.present) : a.held .value = none := by
    obtain ⟨name, value⟩ := a
    cases value with
    | none => rfl
    | some value => simp [present] at h
  rw [toValue_eq, ofTree, Tree.record_written a.nodup_present (fun f _ => hname f)
    fun f hf => a.readField_heldValue hf]
  simp only [bind, Except.bind, Record.required_holding hpresent, Record.optional_holding habsent]
  rfl

theorem exact_toValue : a.toValue.Exact := by
  rw [toValue_eq]
  refine .table (List.forall_mem_map.2 fun f _ => ?_)
  cases f <;> exact .string _

theorem depth_toValue_le : a.toValue.depth ≤ 1 := by
  rw [toValue_eq]
  refine Value.depth_table_le_iff.2 (List.forall_mem_map.2 fun f _ => ?_)
  cases f <;> exact le_rfl

end Annotation

/-! ## Tests -/

namespace TestCase

variable (t : TestCase)

/-- What a test holds. -/
def held (t : TestCase) : (f : Field) → f.Holds
  | .package => t.package
  | .className => t.className
  | .method => t.method
  | .annotations => t.annotations

/-- The fields that are written. -/
def present (t : TestCase) : List Field :=
  [.package, .className, .method] ++ if t.annotations.isEmpty then [] else [.annotations]

/-- What is written for a field, if it is written. -/
def heldValue (t : TestCase) : Field → Value
  | .package => .string t.package
  | .className => .string t.className
  | .method => .string t.method
  | .annotations => .array (t.annotations.map Annotation.toValue)

theorem entries_eq : t.entries = t.present.map fun f => (record.name f, t.heldValue f) := by
  unfold entries present
  split <;> rfl

theorem nodup_present : t.present.Nodup := by
  unfold present
  split <;> decide

theorem readField_heldValue (f : Field) :
    readField manner f (Tree.ofValue (t.heldValue f)) = .ok (t.held f) := by
  cases f with
  | package | className | method => rfl
  | annotations => exact Tree.each_ofValue fun a _ => a.ofTree_toValue

theorem ofTree_toValue : ofTree manner (Tree.ofValue t.toValue) = .ok t := by
  have hname (f : Field) : record.field? (record.name f) = some f := by cases f <;> rfl
  have hpackage : .package ∈ t.present := by simp [present]
  have hclass : .className ∈ t.present := by simp [present]
  have hmethod : .method ∈ t.present := by simp [present]
  have habsent (h : .annotations ∉ t.present) : t.held .annotations = [] := by
    cases ht : t.annotations with
    | nil => exact ht
    | cons a as => exact absurd (by simp [present, ht]) h
  rw [toValue, entries_eq, ofTree, Tree.record_written t.nodup_present (fun f _ => hname f)
    fun f _ => t.readField_heldValue f]
  simp only [bind, Except.bind, Record.required_holding hclass, Record.required_holding hmethod,
    Record.optional_holding (fun h => absurd hpackage h), Record.optional_holding habsent]
  rfl

theorem exact_entries : ∀ e ∈ t.entries, e.2.Exact := by
  rw [entries_eq]
  refine List.forall_mem_map.2 fun f _ => ?_
  cases f with
  | package | className | method => exact .string _
  | annotations => exact .array (List.forall_mem_map.2 fun a _ => a.exact_toValue)

theorem depth_entries_le : ∀ e ∈ t.entries, e.2.depth ≤ 2 := by
  rw [entries_eq]
  refine List.forall_mem_map.2 fun f _ => ?_
  cases f with
  | package | className | method => exact Nat.zero_le 2
  | annotations =>
    exact Value.depth_array_le_iff.2 (List.forall_mem_map.2 fun a _ => a.depth_toValue_le)

end TestCase

/-! ## Test lists -/

namespace TestList

variable (l : TestList)

theorem exact_toValue : l.toValue.Exact := by
  refine .table (List.forall_mem_singleton.2 (.array (List.forall_mem_map.2 fun t _ => ?_)))
  exact .table t.exact_entries

theorem ofTree_toValue : ofTree (Tree.ofValue l.toValue) = .ok l := by
  have hread (f : Field) : readField f
      (Tree.ofValue (.array (l.tests.map TestCase.toValue))) = .ok l.tests :=
    Tree.each_ofValue fun t _ => t.ofTree_toValue
  have hvalue : l.toValue = .table ([.tests].map fun f =>
      (record.name f, .array (l.tests.map TestCase.toValue))) := rfl
  rw [hvalue, ofTree, Tree.record_written (by decide) (by decide) fun f _ => hread f]
  rfl

/-- A test list that was written is read as what it was. -/
theorem ofString_write (layout : Layout) : ofString (Json.write layout l.toValue) = .ok l :=
  Document.read_write layout l.exact_toValue l.ofTree_toValue

end TestList

end TestSelection
