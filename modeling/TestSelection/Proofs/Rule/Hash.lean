import TestSelection.Proofs.Rule.Equality

/-!
# Hashes of equal rules

Equality of rules takes no notice of the order of rules in a composition, on any level, while a hash
is fed by walking through the lists in order.

**Theorem (`hashItems_eq_of_beq`).** Equal rules feed the same items into every hash, whatever
function hashes the rules in a composition.

A composition feeds the sum of the hashes of its rules, modulo `2 ^ 64`. The hashes of equal rules
are the same by induction, so the two sums have the same terms in another order, and addition of
words does not depend on the order, whether it wraps around or not.
-/

namespace TestSelection

/-! ## Parts of rules -/

/-- What an optional value feeds depends on what its value feeds only. -/
theorem hashOption_congr {α β : Type} {items : α → List HashItem} {f : α → β}
    (hitems : ∀ {x y}, f x = f y → items x = items y) {a b : Option α} (h : a.map f = b.map f) :
    hashOption items a = hashOption items b := by
  cases a with
  | none =>
    cases b with
    | none => rfl
    | some y => cases h
  | some x =>
    cases b with
    | none => cases h
    | some y => rw [hashOption, hashOption, hitems (Option.some_inj.1 h)]

/-- What a path feeds depends on its components only. -/
theorem Path.hashItems_congr {p q : Path} (h : p.components = q.components) :
    p.hashItems = q.hashItems := by
  rw [hashItems, hashItems, h]

theorem Source.Equal.hashItems_eq {s t : Source} (h : s.Equal t) : s.hashItems = t.hashItems := by
  have hregex : hashOption (fun r => [HashItem.text r.source]) s.regex =
      hashOption (fun r => [HashItem.text r.source]) t.regex :=
    hashOption_congr (fun h => by rw [h]) h.regex
  have hfile : hashOption Path.hashItems s.file = hashOption Path.hashItems t.file :=
    hashOption_congr Path.hashItems_congr h.file
  rw [hashItems, hashItems, hregex, h.values, hfile]

namespace Rule

variable {inner : List HashItem → UInt64}

theorem FieldsEqual.hashItems_eq {a b : Rule} (h : a.FieldsEqual b) :
    a.hashItems inner = b.hashItems inner := by
  cases h with
  | simple sources => rw [hashItems, hashItems, sources.hashItems_eq]
  | annotationData name value => rw [hashItems, hashItems, name, value]
  | fragmentation index count => rfl

/-! ## Compositions -/

/-- The hashes of rules are added up from left to right. -/
theorem hashSum_eq_foldl (rules : List Rule) (sum : UInt64) :
    hashSum inner rules sum =
      (rules.map fun r => inner (r.hashItems inner)).foldl (· + ·) sum := by
  induction rules generalizing sum with
  | nil => rw [hashSum, List.map_nil, List.foldl_nil]
  | cons r rules ih => rw [hashSum, List.map_cons, List.foldl_cons, ih]

/-- The sum of the hashes is the same for rules with the same hashes in any order. -/
theorem hashSum_congr {rs ss : List Rule} (sum : UInt64)
    (h : Paired (fun r s => r.hashItems inner = s.hashItems inner) rs ss) :
    hashSum inner rs sum = hashSum inner ss sum := by
  have hperm := (paired_iff_perm_map.1 h).map inner
  rw [List.map_map, List.map_map] at hperm
  rw [hashSum_eq_foldl, hashSum_eq_foldl]
  exact hperm.foldl_op_eq

theorem Equal.hashItems_eq {a b : Rule} (h : a.Equal b) :
    a.hashItems inner = b.hashItems inner := by
  induction h with
  | fields h => exact h.hashItems_eq
  | composition e _ ih => rw [hashItems, hashItems, hashSum_congr 0 ⟨e, ih⟩]

/-- **Hashing respects equality.** Equal rules feed the same items into every hash, whatever
function hashes the rules of compositions, and so have the same hash. -/
theorem hashItems_eq_of_beq {a b : Rule} (h : (a == b) = true) :
    (∀ inner, a.hashItems inner = b.hashItems inner) ∧ a.hash = b.hash := by
  have hitems (inner : List HashItem → UInt64) : a.hashItems inner = b.hashItems inner :=
    (beq_iff_equal.1 h).hashItems_eq
  refine ⟨hitems, ?_⟩
  rw [hash, hash, hitems HashItem.hash]

/-- Rules in another order on two levels, with a function that makes the sums wrap around. -/
theorem hashItems_eq_of_beq_sample :
    (Sample.nested == Sample.reordered) = true ∧
      Sample.nested.hashItems (fun items => UInt64.ofNat (UInt64.size - items.length)) =
        Sample.reordered.hashItems (fun items => UInt64.ofNat (UInt64.size - items.length)) ∧
      Sample.nested.hash = Sample.reordered.hash := by
  have h : (Sample.nested == Sample.reordered) = true := beq_iff_equal.2 Sample.nested_equal
  exact ⟨h, (hashItems_eq_of_beq h).1 _, (hashItems_eq_of_beq h).2⟩

end Rule

end TestSelection
