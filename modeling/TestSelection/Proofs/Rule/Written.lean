import TestSelection.Proofs.Composition
import TestSelection.Proofs.Json.Layout
import TestSelection.Proofs.Shape.Record
import TestSelection.Rule.Json

/-!
# Rules that were written

A rule comes back from the value that it is written as (`Rule.ofValue_toValue`), whether it is in
order or not, and whichever integers count as numbers of kinds. That value is made of strings, small
numbers, arrays and tables (`Rule.forall_toValue`), so nothing is lost when it is put into a text
(`Rule.exact_toValue`).

The proof goes over the rule: each kind of rule writes the entries of some of its fields, and
reading such entries gives the fields back. A composition writes its rules one by one.
-/

namespace TestSelection

/-! ## Names -/

theorem RuleKind.ofName_name (kind : RuleKind) : ofName kind.name = .ok kind := by
  cases kind with
  | simple attr => cases attr <;> rfl
  | annotationData | fragmentation | composition => rfl

theorem Operator.ofName_name (operator : Operator) : ofName operator.name = .ok operator := by
  cases operator <;> rfl

/-! ## Scalars -/

theorem Regex.ofString_source (r : Regex) : ofString r.source = .ok r := by
  unfold ofString
  split
  · next expr h => exact congrArg Except.ok (eq_of_source_eq rfl)
  · next reason h => exact absurd (h.symm.trans r.compiles) nofun

theorem Regex.ofValue_source (r : Regex) : ofValue (.string r.source) = .ok r :=
  bind_eq_ok_iff.2 ⟨r.source, rfl, mapError_eq_ok_iff.2 r.ofString_source⟩

namespace Value

theorem asInt32_toInt (n : Int32) : asInt32 (.int n.toInt) = .ok n := by
  have hrange : Int32.minValue.toInt ≤ n.toInt ∧ n.toInt ≤ Int32.maxValue.toInt :=
    ⟨n.minValue_le_toInt, n.toInt_le⟩
  rw [asInt32, if_pos hrange, Int32.ofInt_toInt]

theorem asStrings_map_string (vs : List String) :
    asStrings (.array (vs.map .string)) = .ok vs := by
  have heach : (vs.map Value.string).mapM asString = .ok vs := by
    rw [mapM_eq_ok_iff, List.forall₂_map_left_iff, List.forall₂_same]
    exact fun _ _ => rfl
  exact heach

theorem asOption_of_ok {α : Type} {read : Value → Except Mismatch α} {v : Value} {x : α}
    (hnull : v ≠ .null) (h : read v = .ok x) : asOption read v = .ok (some x) := by
  cases v with
  | null => exact absurd rfl hnull
  | bool | int | float | string | array | table => exact bind_eq_ok_iff.2 ⟨x, h, rfl⟩

end Value

theorem Rule.part_fst (numbered : Int → Bool) (v : Value) : (part numbered v).1 = v := by
  cases v <;> rfl

/-! ## Sources -/

namespace Source

variable {numbered : Int → Bool} (s : Source)

/-- What a source holds of each kind. -/
def held (s : Source) : (f : SourceKind) → Holds f
  | .regex => s.regex
  | .values => s.values
  | .file => s.file

/-- What is written for a source of each kind, if it is there. -/
def heldValue (s : Source) : SourceKind → Value
  | .regex => (s.regex.map fun r => Value.string r.source).getD .null
  | .values => (s.values.map fun vs => Value.array (vs.map Value.string)).getD .null
  | .file => (s.file.map fun p => Value.string p.text).getD .null

theorem entries_eq_map : s.entries = s.present.map fun f => (f.name, s.heldValue f) := by
  obtain ⟨regex, values, file⟩ := s
  cases regex <;> cases values <;> cases file <;> rfl

theorem forall_heldValue {P : Value → Prop} (null : P .null) (string : ∀ s, P (.string s))
    (array : ∀ vs : List Value, (∀ v ∈ vs, P v) → P (.array vs)) (f : SourceKind) :
    P (s.heldValue f) := by
  cases f with
  | regex =>
    unfold heldValue
    cases s.regex with
    | none => exact null
    | some r => exact string r.source
  | values =>
    unfold heldValue
    cases s.values with
    | none => exact null
    | some vs => exact array _ (List.forall_mem_map.2 fun v _ => string v)
  | file =>
    unfold heldValue
    cases s.file with
    | none => exact null
    | some p => exact string p.text

theorem nodup_present : s.present.Nodup := by
  obtain ⟨regex, values, file⟩ := s
  cases regex <;> cases values <;> cases file <;> simp [present]

theorem regex_mem_present : .regex ∈ s.present ↔ s.regex ≠ .none := by
  cases h : s.regex <;> simp [present, h]

theorem values_mem_present : .values ∈ s.present ↔ s.values ≠ .none := by
  cases h : s.values <;> simp [present, h]

theorem file_mem_present : .file ∈ s.present ↔ s.file ≠ .none := by
  cases h : s.file <;> simp [present, h]

/-- A source that is there is read as what is held. -/
theorem readField_heldValue {f : SourceKind} (hf : f ∈ s.present) :
    readField f (Rule.part numbered (s.heldValue f)) = .ok (s.held f) := by
  cases f with
  | regex =>
    obtain ⟨r, hr⟩ := Option.ne_none_iff_exists'.1 (s.regex_mem_present.1 hf)
    simp only [held, heldValue, hr]
    exact Value.asOption_of_ok (by simp) r.ofValue_source
  | values =>
    obtain ⟨vs, hvs⟩ := Option.ne_none_iff_exists'.1 (s.values_mem_present.1 hf)
    simp only [held, heldValue, hvs]
    exact Value.asOption_of_ok (by simp) (Value.asStrings_map_string vs)
  | file =>
    obtain ⟨p, hp⟩ := Option.ne_none_iff_exists'.1 (s.file_mem_present.1 hf)
    simp only [held, heldValue, hp]
    rfl

/-- The entries of a source are read as that source. -/
theorem ofTagged_entries (tag : RuleKind) :
    ofTagged ⟨tag, .inl (s.entries.map fun e => (e.1, Rule.part numbered e.2))⟩ = .ok s := by
  have hname (f : SourceKind) : record.field? (record.name f) = some f := by cases f <;> rfl
  have hregex (h : .regex ∉ s.present) : s.held .regex = .none :=
    not_not.1 (mt s.regex_mem_present.2 h)
  have hvalues (h : .values ∉ s.present) : s.held .values = .none :=
    not_not.1 (mt s.values_mem_present.2 h)
  have hfile (h : .file ∉ s.present) : s.held .file = .none :=
    not_not.1 (mt s.file_mem_present.2 h)
  have hentries : s.entries.map (fun e => (e.1, Rule.part numbered e.2)) =
      s.present.map fun f => (record.name f, Rule.part numbered (s.heldValue f)) := by
    rw [entries_eq_map, List.map_map]
    rfl
  rw [ofTagged, hentries, Tagged.fields_written s.nodup_present (fun f _ => hname f)
    fun f hf => s.readField_heldValue hf]
  simp only [bind, Except.bind, Record.optional_holding hregex, Record.optional_holding hvalues,
    Record.optional_holding hfile]
  rfl

end Source

/-! ## Rules -/

namespace Rule

variable {numbered : Int → Bool}

theorem ofValues_eq_map (items : List Value) :
    ofValues numbered items = items.map (ofValue numbered) := by
  induction items with
  | nil => rfl
  | cons v vs ih => rw [ofValues, ih, List.map_cons]

theorem entryParts_eq_map (entries : List (String × Value)) :
    entryParts numbered entries = entries.map fun e => (e.1, part numbered e.2) := by
  induction entries with
  | nil => rfl
  | cons e es ih => rw [entryParts, ih, List.map_cons]

theorem itemParts_eq_map (items : List Value) :
    itemParts numbered items = items.map (part numbered) := by
  induction items with
  | nil => rfl
  | cons v vs ih => rw [itemParts, ih, List.map_cons]

theorem toValues_eq_map (rules : List Rule) : toValues rules = rules.map toValue := by
  induction rules with
  | nil => rfl
  | cons r rs ih => rw [toValues, ih, List.map_cons]

/-- The patterns of a rule on annotations. -/
def annotationHeld (name value : Regex) : AnnotationField → Regex
  | .name => name
  | .value => value

/-- The numbers of a rule on buckets. -/
def fragmentHeld (index count : Int32) : FragmentField → Int32
  | .index => index
  | .count => count

/-- The parts of a composition. -/
def compositionHeld (operator : Operator) (rules : List Rule) :
    (f : CompositionField) → f.Holds
  | .rules => rules
  | .operator => operator

/-- What is written for the parts of a composition. -/
def compositionValue (operator : Operator) (rules : List Rule) : CompositionField → Value
  | .rules => .array (rules.map toValue)
  | .operator => .string operator.name

/-- The rules in a composition. -/
def parts : Rule → List Rule
  | .composition _ rules => rules
  | _ => []

/-- Induction on rules: a rule comes after the rules in it. -/
@[elab_as_elim]
theorem induct_parts {motive : Rule → Prop} (h : ∀ r, (∀ x ∈ r.parts, motive x) → motive r)
    (r : Rule) : motive r := by
  induction r with
  | simple attr source => exact h (.simple attr source) (by simp [parts])
  | annotationData name value => exact h (.annotationData name value) (by simp [parts])
  | fragmentation index count => exact h (.fragmentation index count) (by simp [parts])
  | composition operator rules ih => exact h (.composition operator rules) ih

/-- What is written for a rule beside its tag. -/
def entries : Rule → List (String × Value)
  | .simple _ s => s.entries
  | .annotationData name value =>
    [.name, .value].map fun f =>
      (annotationRecord.name f, .string (annotationHeld name value f).source)
  | .fragmentation index count =>
    [.index, .count].map fun f => (fragmentRecord.name f, .int (fragmentHeld index count f).toInt)
  | .composition operator rules =>
    [.rules, .operator].map fun f =>
      (compositionRecord.name f, compositionValue operator rules f)

/-- A rule is written as its tag and the entries of its kind. -/
theorem toValue_eq (r : Rule) :
    r.toValue = .table (("type", .string r.kind.name) :: r.entries) := by
  cases r with
  | simple | annotationData | fragmentation => rfl
  | composition operator rules =>
    rw [toValue, toValues_eq_map]
    rfl

theorem ne_type_of_mem_entries {r : Rule} {e : String × Value} (he : e ∈ r.entries) :
    e.1 ≠ "type" := by
  cases r with
  | simple attr s =>
    rw [entries, Source.entries_eq_map] at he
    obtain ⟨f, -, rfl⟩ := List.mem_map.1 he
    cases f <;> simp [SourceKind.name]
  | annotationData =>
    obtain ⟨f, -, rfl⟩ := List.mem_map.1 he
    cases f <;> simp [annotationRecord]
  | fragmentation =>
    obtain ⟨f, -, rfl⟩ := List.mem_map.1 he
    cases f <;> simp [fragmentRecord]
  | composition =>
    obtain ⟨f, -, rfl⟩ := List.mem_map.1 he
    cases f <;> simp [compositionRecord]

/-- The rules of a composition are read if each of them is. -/
theorem readCompositionField_value {operator : Operator} {rules : List Rule}
    (h : ∀ r ∈ rules, ofValue numbered r.toValue = .ok r) (f : CompositionField) :
    readCompositionField f (part numbered (compositionValue operator rules f)) =
      .ok (compositionHeld operator rules f) := by
  cases f with
  | rules =>
    have hrules : (ofValues numbered (rules.map toValue)).mapM id = .ok rules := by
      rw [ofValues_eq_map, List.map_map, mapM_eq_ok_iff, List.forall₂_map_left_iff,
        List.forall₂_same]
      exact h
    exact hrules
  | operator => exact operator.ofName_name

/-- The entries of a rule are read as that rule, if the rules in it are read as what they are. -/
theorem ofTagged_entries {r : Rule} (h : ∀ x ∈ r.parts, ofValue numbered x.toValue = .ok x) :
    ofTagged ⟨r.kind, .inl (r.entries.map fun e => (e.1, part numbered e.2))⟩ = .ok r := by
  cases r with
  | simple attr s =>
    exact bind_eq_ok_iff.2 ⟨s, s.ofTagged_entries (.simple attr), rfl⟩
  | annotationData name value =>
    have hread (f : AnnotationField) :
        Regex.ofValue (part numbered (.string (annotationHeld name value f).source)).1 =
          .ok (annotationHeld name value f) := (annotationHeld name value f).ofValue_source
    have hentries : (annotationData name value).entries.map (fun e => (e.1, part numbered e.2)) =
        [.name, .value].map fun f => (annotationRecord.name f,
          part numbered (.string (annotationHeld name value f).source)) := rfl
    rw [hentries, ofTagged]
    simp only [kind]
    rw [Tagged.fields_written (by decide) (by decide) fun f _ => hread f]
    rfl
  | fragmentation index count =>
    have hread (f : FragmentField) :
        (part numbered (.int (fragmentHeld index count f).toInt)).1.asInt32 =
          .ok (fragmentHeld index count f) := Value.asInt32_toInt _
    have hentries : (fragmentation index count).entries.map (fun e => (e.1, part numbered e.2)) =
        [.index, .count].map fun f => (fragmentRecord.name f,
          part numbered (.int (fragmentHeld index count f).toInt)) := rfl
    rw [hentries, ofTagged]
    simp only [kind]
    rw [Tagged.fields_written (by decide) (by decide) fun f _ => hread f]
    rfl
  | composition operator rules =>
    have hread (f : CompositionField) :
        readCompositionField f (part numbered (compositionValue operator rules f)) =
          .ok (compositionHeld operator rules f) := readCompositionField_value h f
    have hentries : (composition operator rules).entries.map (fun e => (e.1, part numbered e.2)) =
        [.rules, .operator].map fun f => (compositionRecord.name f,
          part numbered (compositionValue operator rules f)) := rfl
    rw [hentries, ofTagged]
    simp only [kind]
    rw [Tagged.fields_written (by decide) (by decide) fun f _ => hread f]
    rfl

/-- A rule comes back from its value, in order or not, and whichever integers are numbers of
kinds. -/
theorem ofValue_toValue (numbered : Int → Bool) (r : Rule) :
    ofValue numbered r.toValue = .ok r := by
  induction r using induct_parts with
  | h r ih =>
    have htag : RuleKind.ofValue numbered (.string r.kind.name) = .ok r.kind := r.kind.ofName_name
    have hrest : ∀ p ∈ r.entries.map (fun e => (e.1, part numbered e.2)), p.1 ≠ "type" := by
      intro p hp
      obtain ⟨e, he, rfl⟩ := List.mem_map.1 hp
      exact ne_type_of_mem_entries he
    have hsplit : Tagged.splitEntries "type" (fun p : RulePart => RuleKind.ofValue numbered p.1)
        (("type", part numbered (.string r.kind.name)) ::
          r.entries.map fun e => (e.1, part numbered e.2)) =
        .ok ⟨r.kind, .inl (r.entries.map fun e => (e.1, part numbered e.2))⟩ :=
      Tagged.splitEntries_cons htag hrest
    rw [toValue_eq, ofValue, entryParts_eq_map, List.map_cons]
    simp only [hsplit]
    exact ofTagged_entries ih

theorem nodup_keys_entries (r : Rule) : (r.entries.map Prod.fst).Nodup := by
  cases r with
  | simple attr s =>
    have hname : Function.Injective SourceKind.name := by
      intro f g h
      cases f <;> cases g <;> simp_all [SourceKind.name]
    rw [entries, Source.entries_eq_map, List.map_map]
    exact s.nodup_present.map hname
  | annotationData =>
    have hkeys : [annotationRecord.name .name, annotationRecord.name .value].Nodup := by decide
    exact hkeys
  | fragmentation =>
    have hkeys : [fragmentRecord.name .index, fragmentRecord.name .count].Nodup := by decide
    exact hkeys
  | composition =>
    have hkeys : [compositionRecord.name .rules, compositionRecord.name .operator].Nodup := by
      decide
    exact hkeys

/-- **What rules are written with.** The value of a rule is made of null, strings, numbers of 32
bits, arrays, and tables in which each key stands once. -/
theorem forall_toValue {P : Value → Prop} (null : P .null) (string : ∀ s, P (.string s))
    (int : ∀ n : Int32, P (.int n.toInt))
    (array : ∀ vs : List Value, (∀ v ∈ vs, P v) → P (.array vs))
    (table : ∀ es : List (String × Value), (es.map Prod.fst).Nodup → (∀ e ∈ es, P e.2) →
      P (.table es)) (r : Rule) : P r.toValue := by
  induction r using induct_parts with
  | h r ih =>
    have htype : "type" ∉ r.entries.map Prod.fst := by
      intro hmem
      obtain ⟨e, he, htype⟩ := List.mem_map.1 hmem
      exact ne_type_of_mem_entries he htype
    have hentries : ∀ e ∈ r.entries, P e.2 := by
      cases r with
      | simple attr s =>
        rw [entries, Source.entries_eq_map]
        exact List.forall_mem_map.2 fun f _ => s.forall_heldValue null string array f
      | annotationData name value => exact List.forall_mem_map.2 fun _ _ => string _
      | fragmentation index count => exact List.forall_mem_map.2 fun _ _ => int _
      | composition operator rules =>
        refine List.forall_mem_map.2 fun f _ => ?_
        cases f with
        | rules => exact array _ (List.forall_mem_map.2 ih)
        | operator => exact string _
    rw [toValue_eq]
    exact table _ (List.nodup_cons.2 ⟨htype, r.nodup_keys_entries⟩)
      (List.forall_mem_cons.2 ⟨string _, hentries⟩)

/-- Numbers of 32 bits are within 64 bits. -/
theorem exact_int32 (n : Int32) : (Value.int n.toInt).Exact := by
  have hlow : Int64.minValue.toInt ≤ Int32.minValue.toInt := by decide
  have hhigh : Int32.maxValue.toInt < (UInt64.size : Int) := by decide
  exact .int (hlow.trans n.minValue_le_toInt) (n.toInt_le.trans_lt hhigh)

/-- The value of a rule has no floats, and no integers beyond 32 bits. -/
theorem exact_toValue (r : Rule) : r.toValue.Exact :=
  r.forall_toValue .null .string exact_int32 (fun _ => .array) (fun _ _ => .table)

end Rule

end TestSelection
