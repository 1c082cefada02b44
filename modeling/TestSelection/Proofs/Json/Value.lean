import TestSelection.Json.Reading
import TestSelection.Proofs.Results

/-!
# Values and trees

A value is a tree that can be read back as a value. Reading it takes as much room as the value is
deep (`Value.depth`), and with as much room the value comes back (`Tree.toValue_ofValue`).
-/

namespace TestSelection

/-! ## Induction -/

theorem sizeOf_lt_of_entry {κ ν : Type} [SizeOf κ] [SizeOf ν] {entries : List (κ × ν)} {e : κ × ν}
    (h : e ∈ entries) : sizeOf e.2 < sizeOf entries := by
  have hentry : sizeOf e < sizeOf entries := List.sizeOf_lt_of_mem h
  cases e
  simp only [Prod.mk.sizeOf_spec] at hentry ⊢
  omega

/-- Induction on values: an array comes after its items, and a table after its entries. -/
@[elab_as_elim, induction_eliminator]
theorem Value.induct {motive : Value → Prop} (null : motive .null) (bool : ∀ b, motive (.bool b))
    (int : ∀ n, motive (.int n)) (float : ∀ x, motive (.float x))
    (string : ∀ s, motive (.string s))
    (array : ∀ items, (∀ v ∈ items, motive v) → motive (.array items))
    (table : ∀ entries, (∀ e ∈ entries, motive e.2) → motive (.table entries)) :
    ∀ v, motive v
  | .null => null
  | .bool b => bool b
  | .int n => int n
  | .float x => float x
  | .string s => string s
  | .array items => array items fun v _ => Value.induct null bool int float string array table v
  | .table entries =>
    table entries fun e h =>
      have := sizeOf_lt_of_entry h
      Value.induct null bool int float string array table e.2

/-! ## Depth -/

namespace Value

mutual

/-- How many arrays and tables are open at a time when a value is written. -/
def depth : Value → Nat
  | .array items => depthOfItems items + 1
  | .table entries => depthOfEntries entries + 1
  | _ => 0

/-- The depth of the deepest item. -/
def depthOfItems : List Value → Nat
  | [] => 0
  | v :: vs => max (depth v) (depthOfItems vs)

/-- The depth of the deepest entry. -/
def depthOfEntries : List (String × Value) → Nat
  | [] => 0
  | (_, v) :: es => max (depth v) (depthOfEntries es)

end

theorem depthOfItems_le_iff {items : List Value} {n : Nat} :
    depthOfItems items ≤ n ↔ ∀ v ∈ items, v.depth ≤ n := by
  induction items with
  | nil => simp [depthOfItems]
  | cons v vs ih => rw [depthOfItems, Nat.max_le, ih, List.forall_mem_cons]

theorem depthOfEntries_le_iff {entries : List (String × Value)} {n : Nat} :
    depthOfEntries entries ≤ n ↔ ∀ e ∈ entries, e.2.depth ≤ n := by
  induction entries with
  | nil => simp [depthOfEntries]
  | cons e es ih => rw [depthOfEntries, Nat.max_le, ih, List.forall_mem_cons]

theorem depth_array_le_iff {items : List Value} {n : Nat} :
    (Value.array items).depth ≤ n + 1 ↔ ∀ v ∈ items, v.depth ≤ n := by
  rw [depth, Nat.add_le_add_iff_right, depthOfItems_le_iff]

theorem depth_table_le_iff {entries : List (String × Value)} {n : Nat} :
    (Value.table entries).depth ≤ n + 1 ↔ ∀ e ∈ entries, e.2.depth ≤ n := by
  rw [depth, Nat.add_le_add_iff_right, depthOfEntries_le_iff]

end Value

namespace Json.Tree

/-! ## Reading values -/

theorem ofItems_eq_map (items : List Value) : ofItems items = items.map ofValue := by
  induction items with
  | nil => rfl
  | cons v vs ih => rw [ofItems, ih, List.map_cons]

theorem ofEntries_eq_map (entries : List (String × Value)) :
    ofEntries entries = entries.map fun e => (some e.1, ofValue e.2) := by
  induction entries with
  | nil => rfl
  | cons e es ih => rw [ofEntries, ih, List.map_cons]

theorem key_eq_ok_iff {key? : Option String} {k : String} : key key? = .ok k ↔ key? = some k := by
  cases key? with
  | none => simp [key]
  | some k' => simp [key]

variable {room : Nat}

theorem toValues_eq_ok_iff {ts : List Tree} {vs : List Value} :
    toValues room ts = .ok vs ↔ List.Forall₂ (fun t v => t.toValue room = .ok v) ts vs := by
  induction ts generalizing vs with
  | nil => rw [toValues, List.forall₂_nil_left_iff, Except.ok.injEq, eq_comm]
  | cons t ts ih =>
    simp only [toValues, bind_eq_ok_iff, pure_eq_ok_iff, ih, List.forall₂_cons_left_iff]
    constructor
    · rintro ⟨v, hv, vs', hvs, rfl⟩
      exact ⟨v, vs', hv, hvs, rfl⟩
    · rintro ⟨v, vs', hv, hvs, rfl⟩
      exact ⟨v, hv, vs', hvs, rfl⟩

theorem toFields_eq_ok_iff {es : List (Option String × Tree)} {fs : List (String × Value)} :
    toFields room es = .ok fs ↔
      List.Forall₂ (fun e f => e.1 = some f.1 ∧ e.2.toValue room = .ok f.2) es fs := by
  induction es generalizing fs with
  | nil => rw [toFields, List.forall₂_nil_left_iff, Except.ok.injEq, eq_comm]
  | cons e es ih =>
    obtain ⟨key?, t⟩ := e
    simp only [toFields, bind_eq_ok_iff, pure_eq_ok_iff, key_eq_ok_iff, ih,
      List.forall₂_cons_left_iff]
    constructor
    · rintro ⟨k, hk, v, hv, fs', hfs, rfl⟩
      exact ⟨(k, v), fs', ⟨hk, hv⟩, hfs, rfl⟩
    · rintro ⟨⟨k, v⟩, fs', ⟨hk, hv⟩, hfs, rfl⟩
      exact ⟨k, hk, v, hv, fs', hfs, rfl⟩

theorem toValue_array_eq_ok_iff {items : List Tree} {v : Value} :
    (Tree.array items).toValue room = .ok v ↔
      ∃ rest vs, room = rest + 1 ∧ v = .array vs ∧
        List.Forall₂ (fun t v => t.toValue rest = .ok v) items vs := by
  cases room with
  | zero => simp [toValue]
  | succ rest =>
    rw [toValue, if_neg rest.succ_ne_zero, bind_eq_ok_iff]
    simp [pure_eq_ok_iff, toValues_eq_ok_iff, and_comm]

theorem toValue_table_eq_ok_iff {entries : List (Option String × Tree)} {v : Value} :
    (Tree.table entries).toValue room = .ok v ↔
      ∃ rest fs, room = rest + 1 ∧ v = .table fs ∧
        List.Forall₂ (fun e f => e.1 = some f.1 ∧ e.2.toValue rest = .ok f.2) entries fs := by
  cases room with
  | zero => simp [toValue]
  | succ rest =>
    rw [toValue, if_neg rest.succ_ne_zero, bind_eq_ok_iff]
    simp [pure_eq_ok_iff, toFields_eq_ok_iff, and_comm]

/-- Values that are not too deep come back from their trees. -/
theorem toValue_ofValue {v : Value} (h : v.depth ≤ room) : (ofValue v).toValue room = .ok v := by
  induction v generalizing room with
  | null | bool | int | float | string => rfl
  | array items ih =>
    obtain ⟨rest, rfl⟩ := Nat.exists_eq_add_one_of_ne_zero (Nat.ne_zero_of_lt h)
    rw [ofValue, ofItems_eq_map, toValue_array_eq_ok_iff]
    refine ⟨rest, items, rfl, rfl, ?_⟩
    rw [List.forall₂_map_left_iff, List.forall₂_same]
    exact fun v hv => ih v hv (Value.depth_array_le_iff.1 h v hv)
  | table entries ih =>
    obtain ⟨rest, rfl⟩ := Nat.exists_eq_add_one_of_ne_zero (Nat.ne_zero_of_lt h)
    rw [ofValue, ofEntries_eq_map, toValue_table_eq_ok_iff]
    refine ⟨rest, entries, rfl, rfl, ?_⟩
    rw [List.forall₂_map_left_iff, List.forall₂_same]
    exact fun e he => ⟨rfl, ih e he (Value.depth_table_le_iff.1 h e he)⟩

end Json.Tree

end TestSelection
