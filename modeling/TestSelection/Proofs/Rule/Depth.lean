import TestSelection.Proofs.Pairing
import TestSelection.Proofs.Rule.Written

/-!
# The depth of rules that were read

**Theorem (`Rule.depth_le_of_ofValue`).** What is written for a rule that was read from a value is
not deeper than the value, so a reader that had room for the value has room for the rule.

Only two parts of rules are written as arrays: the strings of a source, and the rules of a
composition. Both can only be read from arrays (`Source.Within`, `Rule.CompositionWithin`), and the
rules only from the items of the array. The induction is on the depth of the value, because these
items are two levels below it.
-/

namespace TestSelection

variable {numbered : Int → Bool} {n : Nat} {t : Tagged RuleKind RulePart}

namespace Rule

/-- The parts that belong to a tag are values of limited depth. -/
def PartsWithin (numbered : Int → Bool) (n : Nat) (t : Tagged RuleKind RulePart) : Prop :=
  ∀ p ∈ t.nodes, ∃ v : Value, v.depth ≤ n ∧ p = part numbered v

end Rule

/-! ## Sources -/

namespace Source

/-- There is room for what is written for a source. -/
def Within (n : Nat) : (f : SourceKind) → Holds f → Prop
  | .regex => fun _ => True
  | .values => fun vs => vs ≠ .none → 0 < n
  | .file => fun _ => True

theorem within_of_readField {v : Value} (hv : v.depth ≤ n) {f : SourceKind} {x : Holds f}
    (h : readField f (Rule.part numbered v) = .ok x) : Within n f x := by
  cases f with
  | regex | file => trivial
  | values =>
    intro hx
    have hread : v.asOption Value.asStrings = .ok x := Rule.part_fst numbered v ▸ h
    cases v with
    | null =>
      cases hread
      exact absurd rfl hx
    | array items => exact Nat.zero_lt_of_lt hv
    | bool | int | float | string | table => cases hread

theorem depth_heldValue_le {s : Source} (h : ∀ f, Within n f (s.held f)) (f : SourceKind) :
    (s.heldValue f).depth ≤ n := by
  cases f with
  | regex => cases hr : s.regex <;> simp [heldValue, hr, Value.depth]
  | values =>
    cases hvs : s.values with
    | none => simp [heldValue, hvs, Value.depth]
    | some vs =>
      have hn : 0 < n := h .values (by simp [held, hvs])
      obtain ⟨m, rfl⟩ := Nat.exists_eq_add_one_of_ne_zero hn.ne'
      simp only [heldValue, hvs]
      exact Value.depth_array_le_iff.2 (List.forall_mem_map.2 fun _ _ => Nat.zero_le m)
  | file => cases hp : s.file <;> simp [heldValue, hp, Value.depth]

/-- What is written for the source of a rule is not deeper than what was read. -/
theorem depth_le_of_ofTagged {s : Source} (ht : Rule.PartsWithin numbered n t)
    (h : ofTagged t = .ok s) : ∀ e ∈ s.entries, e.2.depth ≤ n := by
  obtain ⟨fields, hfields, h⟩ := bind_eq_ok_iff.1 h
  cases h
  have hwithin : ∀ f x, fields.values f = some x → Within n f x := by
    refine Tagged.forall_fields (fun p hp f x hx => ?_) hfields
    obtain ⟨v, hv, rfl⟩ := ht p hp
    exact within_of_readField hv hx
  have hheld (f : SourceKind) : Within n f (held ⟨fields.optional .regex .none,
      fields.optional .values .none, fields.optional .file .none⟩ f) := by
    cases f with
    | regex | file => trivial
    | values => exact Record.forall_optional hwithin (absurd rfl)
  rw [entries_eq_map]
  exact List.forall_mem_map.2 fun f _ => depth_heldValue_le hheld f

end Source

/-! ## Rules -/

namespace Rule

/-- There is room for what is written for a part of a composition. -/
def CompositionWithin (n : Nat) : (f : CompositionField) → f.Holds → Prop
  | .rules => fun rules => (Value.array (rules.map toValue)).depth ≤ n
  | .operator => fun _ => True

/-- The rules in a composition are not deeper than the array that they were read from. -/
theorem within_of_readCompositionField {v : Value} (hv : v.depth ≤ n)
    (ih : ∀ w : Value, w.depth < n → ∀ r, ofValue numbered w = .ok r → r.toValue.depth ≤ w.depth)
    {f : CompositionField} {x : f.Holds} (h : readCompositionField f (part numbered v) = .ok x) :
    CompositionWithin n f x := by
  cases f with
  | operator => trivial
  | rules =>
    cases v with
    | array items =>
      obtain ⟨m, rfl⟩ := Nat.exists_eq_add_one_of_ne_zero (Nat.ne_zero_of_lt hv)
      have hitems := Value.depth_array_le_iff.1 hv
      have hrules : (ofValues numbered items).mapM id = .ok x := h
      rw [ofValues_eq_map, mapM_eq_ok_iff, List.forall₂_map_left_iff] at hrules
      refine Value.depth_array_le_iff.2 (List.forall_mem_map.2 fun r hr => ?_)
      obtain ⟨w, hw, hwr⟩ := (Paired.of_forall₂ hrules).exists_left hr
      exact (ih w (Nat.lt_succ_of_le (hitems w hw)) r hwr).trans (hitems w hw)
    | null | bool | int | float | string | table => cases h

variable {r : Rule}

/-- A rule is not deeper than its parts, and the table around them. -/
theorem depth_le_of_ofTagged (ht : PartsWithin numbered n t)
    (ih : ∀ w : Value, w.depth < n → ∀ r, ofValue numbered w = .ok r → r.toValue.depth ≤ w.depth)
    (h : ofTagged t = .ok r) : r.toValue.depth ≤ n + 1 := by
  have hentries : ∀ e ∈ r.entries, e.2.depth ≤ n := by
    unfold ofTagged at h
    split at h
    · obtain ⟨s, hs, h⟩ := bind_eq_ok_iff.1 h
      cases h
      exact Source.depth_le_of_ofTagged ht hs
    · simp only [bind_eq_ok_iff, pure_eq_ok_iff] at h
      obtain ⟨_, -, name, -, value, -, rfl⟩ := h
      exact List.forall_mem_map.2 fun _ _ => Nat.zero_le n
    · simp only [bind_eq_ok_iff, pure_eq_ok_iff] at h
      obtain ⟨_, -, index, -, count, -, rfl⟩ := h
      exact List.forall_mem_map.2 fun _ _ => Nat.zero_le n
    · simp only [bind_eq_ok_iff, pure_eq_ok_iff] at h
      obtain ⟨fields, hfields, rules, hrules, operator, -, rfl⟩ := h
      have hwithin : ∀ f x, fields.values f = some x → CompositionWithin n f x := by
        refine Tagged.forall_fields (fun p hp f x hx => ?_) hfields
        obtain ⟨v, hv, rfl⟩ := ht p hp
        exact within_of_readCompositionField hv ih hx
      refine List.forall_mem_map.2 fun f _ => ?_
      cases f with
      | rules => exact hwithin .rules rules (Record.required_eq_ok_iff.1 hrules)
      | operator => exact Nat.zero_le n
  rw [toValue_eq, Value.depth_table_le_iff]
  exact List.forall_mem_cons.2 ⟨Nat.zero_le n, hentries⟩

/-- A rule that was read from a value is not deeper than the value. -/
theorem depth_le_of_ofValue {v : Value} (h : ofValue numbered v = .ok r) :
    r.toValue.depth ≤ v.depth := by
  induction hn : v.depth using Nat.strongRecOn generalizing v r with
  | ind n ih =>
    subst hn
    cases v with
    | table entries =>
      obtain ⟨t, ht, h⟩ := bind_eq_ok_iff.1 h
      rw [entryParts_eq_map] at ht
      have hparts : PartsWithin numbered (Value.depthOfEntries entries) t := by
        intro p hp
        obtain ⟨q, hq, rfl⟩ := Tagged.mem_of_splitEntries ht hp
        obtain ⟨e, he, rfl⟩ := List.mem_map.1 hq
        exact ⟨e.2, Value.depthOfEntries_le_iff.1 le_rfl e he, rfl⟩
      exact depth_le_of_ofTagged hparts
        (fun w hw r hr => ih w.depth (Nat.lt_succ_of_lt hw) hr rfl) h
    | array items =>
      obtain ⟨t, ht, h⟩ := bind_eq_ok_iff.1 h
      rw [itemParts_eq_map] at ht
      have hparts : PartsWithin numbered (Value.depthOfItems items) t := by
        intro p hp
        obtain ⟨v, hv, rfl⟩ := List.mem_map.1 (Tagged.mem_of_splitItems ht hp)
        exact ⟨v, Value.depthOfItems_le_iff.1 le_rfl v hv, rfl⟩
      exact depth_le_of_ofTagged hparts
        (fun w hw r hr => ih w.depth (Nat.lt_succ_of_lt hw) hr rfl) h
    | null | bool | int | float | string => cases h

end Rule

end TestSelection
