import TestSelection.Config
import TestSelection.Proofs.Rule.RoundTrip
import TestSelection.Proofs.Shape.Reading

/-!
# Specifications as settings

The reader of settings puts the entries of a document into a table one by one, and a key may say
where to put an entry, so what comes out need not be what was there. The value of a specification
goes through unchanged (`Specification.ofEntries_settings`): its two keys are plain names, their
values are arrays, and inside of these each key stands once (`Value.Keyed`). From the settings, the
specification comes back (`Specification.ofSettings_settings`), and no key is passed over.

Settings are read in one pass, and keys that are passed over are noted on the way. The specification
that is read does not depend on the notes, and the notes do not depend on what the lists hold
(`Specification.readSettings_eq`), so that there is one fact about each.
-/

namespace TestSelection

/-- In each table of the value, each key stands once. -/
inductive Value.Keyed : Value → Prop
  | null : Keyed .null
  | bool (b : Bool) : Keyed (.bool b)
  | int (n : Int) : Keyed (.int n)
  | float (x : Float) : Keyed (.float x)
  | string (s : String) : Keyed (.string s)
  | array {items : List Value} (h : ∀ v ∈ items, Keyed v) : Keyed (.array items)
  | table {entries : List (String × Value)} (hkeys : (entries.map Prod.fst).Nodup)
      (h : ∀ e ∈ entries, Keyed e.2) : Keyed (.table entries)

/-! ## Filling settings -/

namespace Settings

/-- The value of a new key is put behind the others. -/
theorem alter_of_not_mem {key : String} {change : Value → Value} {es : List (String × Value)}
    (h : key ∉ es.map Prod.fst) : alter key change es = es ++ [(key, change .null)] := by
  induction es with
  | nil => rfl
  | cons e es ih =>
    obtain ⟨k, v⟩ := e
    rw [List.map_cons, List.mem_cons, not_or] at h
    rw [alter, if_neg (Ne.symm h.1), ih h.2, List.cons_append]

theorem lastOfItems_eq_map (items : List Value) : lastOfItems items = items.map lastOfEach := by
  induction items with
  | nil => rfl
  | cons v vs ih => rw [lastOfItems, ih, List.map_cons]

/-- Entries with new keys are put behind the others, one after the other. -/
theorem foldl_alter_eq_append {change : String × Value → Value → Value}
    {known es : List (String × Value)} (hkeys : ((known ++ es).map Prod.fst).Nodup)
    (h : ∀ e ∈ es, change e .null = e.2) :
    es.foldl (fun settings e => alter e.1 (change e) settings) known = known ++ es := by
  induction es generalizing known with
  | nil => rw [List.foldl_nil, List.append_nil]
  | cons e es ih =>
    obtain ⟨he, h⟩ := List.forall_mem_cons.1 h
    have hnew : e.1 ∉ known.map Prod.fst := by
      intro hmem
      rw [List.map_append, List.nodup_append] at hkeys
      exact hkeys.2.2 e.1 hmem e.1 List.mem_cons_self rfl
    rw [List.append_cons] at hkeys ⊢
    rw [List.foldl_cons, alter_of_not_mem hnew, he]
    exact ih hkeys h

theorem lastOfEntries_eq_foldl (known es : List (String × Value)) :
    lastOfEntries known es =
      es.foldl (fun settings e => alter e.1 (fun _ => lastOfEach e.2) settings) known := by
  induction es generalizing known with
  | nil => rfl
  | cons e es ih => rw [lastOfEntries, ih, List.foldl_cons]

/-- If each key stands once, all values are last ones. -/
theorem lastOfEach_eq_self {v : Value} (hv : v.Keyed) : lastOfEach v = v := by
  induction hv with
  | null | bool | int | float | string => rfl
  | array _ ih => rw [lastOfEach, lastOfItems_eq_map, List.map_congr_left ih, List.map_id']
  | table hkeys _ ih =>
    rw [lastOfEach, lastOfEntries_eq_foldl]
    exact congrArg Value.table (foldl_alter_eq_append hkeys ih)

/-- Entries under different names are the settings of themselves, unless they are tables. -/
theorem ofEntries_eq_self {es : List (String × Value)} (hkeys : (es.map Prod.fst).Nodup)
    (hname : ∀ e ∈ es, KeyPath.ofKey e.1 = ⟨e.1, []⟩) (h : ∀ e ∈ es, merge .null e.2 = e.2) :
    ofEntries es = es := by
  have hset : ∀ settings, ∀ e ∈ es, set settings (.ofKey e.1) e.2 =
      alter e.1 (fun old => merge old e.2) settings := by
    intro settings e he
    rw [set, hname e he]
    rfl
  rw [ofEntries, List.foldl_ext _ _ _ hset]
  exact foldl_alter_eq_append hkeys h

end Settings

/-! ## Reading and noting -/

namespace Specification

/-- The specification that is read from settings. -/
def ofSettings (settings : List (String × Value)) : Except Misfit Specification :=
  (readSettings settings).map Prod.fst

/-- The keys of settings that belong to no list, each once, in order. -/
def unknownKeys (settings : List (String × Value)) : List String :=
  ((record.unknownKeys settings).foldl (fun keys key => keys.insert key) []).mergeSort
    fun a b => a ≤ b

/-- The specification is what a reading without notes gives. -/
theorem ofSettings_eq (settings : List (String × Value)) :
    ofSettings settings =
      (record.ofEntries reading.forgetting (settings.map fun e => (.ok e.1, e.2))).map
        fun fields => ⟨fields.optional .allowlist [], fields.optional .blocklist []⟩ := by
  rw [ofSettings, readSettings, Record.run_ofEntries fun _ _ => rfl]
  cases record.ofEntries reading.forgetting (settings.map fun e => (.ok e.1, e.2)) <;> rfl

/-- Reading settings gives the specification, and the keys that belong to no list. -/
theorem readSettings_eq (settings : List (String × Value)) :
    readSettings settings =
      (ofSettings settings).map fun spec => (spec, unknownKeys settings) := by
  rw [ofSettings, readSettings, Record.run_ofEntries fun _ _ => rfl]
  cases record.ofEntries reading.forgetting (settings.map fun e => (.ok e.1, e.2)) <;> rfl

end Specification

/-! ## Specifications -/

theorem Rule.keyed_toValue (r : Rule) : r.toValue.Keyed :=
  r.forall_toValue .null .string (fun n => .int n.toInt) (fun _ => .array) (fun _ => .table)

namespace Specification

variable (s : Specification)

/-- The entries of a specification. -/
def settings (s : Specification) : List (String × Value) :=
  [.allowlist, .blocklist].map fun l => (record.name l, s.heldValue l)

theorem nodup_keys_settings : (s.settings.map Prod.fst).Nodup := by
  have hkeys : [record.name .allowlist, record.name .blocklist].Nodup := by decide
  exact hkeys

theorem keyed_toValue : s.toValue.Keyed := by
  rw [toValue_eq]
  exact .table s.nodup_keys_settings (List.forall_mem_map.2 fun l _ =>
    .array (List.forall_mem_map.2 fun r _ => r.keyed_toValue))

/-- The entries of a specification are its settings. -/
theorem ofEntries_settings : Settings.ofEntries s.settings = s.settings := by
  have hname (l : RuleList) : KeyPath.ofKey (record.name l) = ⟨record.name l, []⟩ := by
    cases l <;> decide +kernel
  exact Settings.ofEntries_eq_self s.nodup_keys_settings (List.forall_mem_map.2 fun l _ => hname l)
    (List.forall_mem_map.2 fun _ _ => rfl)

theorem rulesFrom_toValue (list : RuleList) (index : Nat) (rules : List Rule) :
    rulesFrom list index (rules.map Rule.toValue) = .ok rules := by
  induction rules generalizing index with
  | nil => rfl
  | cons r rs ih =>
    rw [List.map_cons, rulesFrom, Rule.ofValue_toValue]
    exact bind_eq_ok_iff.2 ⟨rs, ih (index + 1), rfl⟩

/-- A specification comes back from its settings. -/
theorem ofSettings_settings : ofSettings s.settings = .ok s := by
  have hread (l : RuleList) : listOfValue l (s.heldValue l) = .ok (s.held l) :=
    rulesFrom_toValue l 0 (s.held l)
  have hentries : s.settings.map (fun e => ((.ok e.1 : Except Misfit String), e.2)) =
      record.written [.allowlist, .blocklist] s.heldValue := rfl
  rw [ofSettings_eq, hentries,
    Record.ofEntries_written (by decide) (fun l _ => field?_name l) fun l _ => hread l]
  rfl

/-- The keys of a specification are known. -/
theorem unknownKeys_settings : unknownKeys s.settings = [] := by
  have hnone : record.unknownKeys s.settings = [] := by
    rw [Record.unknownKeys, settings, List.map_map, List.filter_eq_nil_iff]
    refine List.forall_mem_map.2 fun l _ => ?_
    simp [field?_name]
  rw [unknownKeys, hnone, List.foldl_nil, List.mergeSort_nil]

end Specification

end TestSelection
