import TestSelection.Proofs.Json.Reading
import TestSelection.Proofs.Rule.Written
import TestSelection.Proofs.Shape.Reading

/-!
# Rules that were read

**Theorem (`Rule.ofValue_table_iff`).** A table is read as a rule if it consists of the tag and of
entries that give the parts of the rule, in any order: each entry gives a part, none gives what
another has given, and no part is missing (`Rule.GivenBy`).

**Theorem (`Rule.ofString_eq_ok_iff`).** A text is read as a rule if it denotes a value that is not
too deep, that is read as the rule, and whose tag is a string.
-/

namespace TestSelection

open Json (Denotes Document Tree)

/-- The fields of rules of a kind. -/
def RuleKind.fields : RuleKind → List String
  | .simple _ => ["regex", "values", "file"]
  | .annotationData => ["name-regex", "value-regex"]
  | .fragmentation => ["index", "count"]
  | .composition => ["filters", "op"]

/-- The fields that a rule of a kind cannot do without. -/
def RuleKind.required : RuleKind → List String
  | .simple _ => []
  | kind => kind.fields

theorem RuleKind.ne_type_of_mem_fields {kind : RuleKind} {key : String} (h : key ∈ kind.fields) :
    key ≠ "type" := by
  rintro rfl
  cases kind <;> simp [fields] at h

theorem strict_other {F : Type} {T : F → Type} (r : Record F)
    (read : (f : F) → RulePart → Except Mismatch (T f)) (key : String) (p : RulePart) :
    (strict r read).other key p ≠ .ok () := by
  intro h
  cases h

/-! ## Sources -/

namespace Source

theorem field?_name (f : SourceKind) : record.field? (record.name f) = some f := by
  cases f <;> rfl

theorem held_injective : Function.Injective held := by
  intro s s' h
  obtain ⟨regex, values, file⟩ := s
  obtain ⟨regex', values', file'⟩ := s'
  have hregex : regex = regex' := congrFun h .regex
  have hvalues : values = values' := congrFun h .values
  have hfile : file = file' := congrFun h .file
  rw [hregex, hvalues, hfile]

/-- The entries give what the source holds, and what has no entry is absent. -/
def GivenBy (ps : List (String × RulePart)) (s : Source) : Prop :=
  record.Gives readField ps s.held ∧
    ∀ f : SourceKind, f.name ∉ ps.map Prod.fst → s.held f = none.held f

theorem ofTagged_entries_iff {tag : RuleKind} {ps : List (String × RulePart)} {s : Source} :
    ofTagged ⟨tag, .inl ps⟩ = .ok s ↔ s.GivenBy ps := by
  have hgiven : (∃ fields, record.ofEntries (strict record readField)
      (ps.map fun e => (.ok e.1, e.2)) = .ok fields ∧
        ∀ f, fields.optional f (none.held f) = s.held f) ↔ s.GivenBy ps :=
    Record.ofEntries_optional_iff field?_name (strict_other _ _)
  rw [← hgiven, ofTagged]
  simp only [Tagged.fields, bind_eq_ok_iff, pure_eq_ok_iff]
  refine exists_congr fun fields => and_congr_right fun _ => ?_
  constructor
  · rintro rfl f
    cases f <;> rfl
  · intro h
    exact held_injective (funext fun f => by rw [← h f]; cases f <;> rfl)

end Source

/-! ## Rules -/

namespace Rule

variable {r : Rule} {ps : List (String × RulePart)} {numbered : Int → Bool}

theorem annotationRecord_field?_name (f : AnnotationField) :
    annotationRecord.field? (annotationRecord.name f) = some f := by
  cases f <;> rfl

theorem fragmentRecord_field?_name (f : FragmentField) :
    fragmentRecord.field? (fragmentRecord.name f) = some f := by
  cases f <;> rfl

theorem compositionRecord_field?_name (f : CompositionField) :
    compositionRecord.field? (compositionRecord.name f) = some f := by
  cases f <;> rfl

/-- The entries beside the tag give the parts of the rule. A source may be left out; any other part
has to be there. -/
def GivenBy (ps : List (String × RulePart)) : Rule → Prop
  | .simple _ s => s.GivenBy ps
  | .annotationData name value =>
    annotationRecord.GivesAll (fun _ p => Regex.ofValue p.1) ps (annotationHeld name value)
  | .fragmentation index count =>
    fragmentRecord.GivesAll (fun _ p => p.1.asInt32) ps (fragmentHeld index count)
  | .composition operator rules =>
    compositionRecord.GivesAll readCompositionField ps (compositionHeld operator rules)

section

variable {content : List (String × RulePart) ⊕ List RulePart}

theorem ofTagged_annotationData_iff :
    ofTagged ⟨.annotationData, content⟩ = .ok r ↔
      ∃ name value, r = .annotationData name value ∧
        ∃ fields, Tagged.fields ⟨RuleKind.annotationData, content⟩ annotationRecord
          (strict annotationRecord fun _ p => Regex.ofValue p.1) = .ok fields ∧
            ∀ f, fields.required f = .ok (annotationHeld name value f) := by
  simp only [ofTagged, bind_eq_ok_iff, pure_eq_ok_iff]
  constructor
  · rintro ⟨fields, hfields, name, hname, value, hvalue, rfl⟩
    exact ⟨name, value, rfl, fields, hfields, fun f => by cases f <;> assumption⟩
  · rintro ⟨name, value, rfl, fields, hfields, hheld⟩
    exact ⟨fields, hfields, name, hheld .name, value, hheld .value, rfl⟩

theorem ofTagged_fragmentation_iff :
    ofTagged ⟨.fragmentation, content⟩ = .ok r ↔
      ∃ index count, r = .fragmentation index count ∧
        ∃ fields, Tagged.fields ⟨RuleKind.fragmentation, content⟩ fragmentRecord
          (strict fragmentRecord fun _ p => p.1.asInt32) = .ok fields ∧
            ∀ f, fields.required f = .ok (fragmentHeld index count f) := by
  simp only [ofTagged, bind_eq_ok_iff, pure_eq_ok_iff]
  constructor
  · rintro ⟨fields, hfields, index, hindex, count, hcount, rfl⟩
    exact ⟨index, count, rfl, fields, hfields, fun f => by cases f <;> assumption⟩
  · rintro ⟨index, count, rfl, fields, hfields, hheld⟩
    exact ⟨fields, hfields, index, hheld .index, count, hheld .count, rfl⟩

theorem ofTagged_composition_iff :
    ofTagged ⟨.composition, content⟩ = .ok r ↔
      ∃ operator rules, r = .composition operator rules ∧
        ∃ fields, Tagged.fields ⟨RuleKind.composition, content⟩ compositionRecord
          (strict compositionRecord readCompositionField) = .ok fields ∧
            ∀ f, fields.required f = .ok (compositionHeld operator rules f) := by
  simp only [ofTagged, bind_eq_ok_iff, pure_eq_ok_iff]
  constructor
  · rintro ⟨fields, hfields, rules, hrules, operator, hoperator, rfl⟩
    exact ⟨operator, rules, rfl, fields, hfields, fun f => by cases f <;> assumption⟩
  · rintro ⟨operator, rules, rfl, fields, hfields, hheld⟩
    exact ⟨fields, hfields, rules, hheld .rules, operator, hheld .operator, rfl⟩

end

/-- Entries are read as a rule of the kind of the tag if they give the rule. -/
theorem ofTagged_entries_iff {tag : RuleKind} :
    ofTagged ⟨tag, .inl ps⟩ = .ok r ↔ r.kind = tag ∧ r.GivenBy ps := by
  cases tag with
  | simple attr =>
    simp only [ofTagged, bind_eq_ok_iff, pure_eq_ok_iff, Source.ofTagged_entries_iff]
    constructor
    · rintro ⟨s, hs, rfl⟩
      exact ⟨rfl, hs⟩
    · rintro ⟨hkind, hgiven⟩
      cases r <;> cases hkind
      exact ⟨_, hgiven, rfl⟩
  | annotationData =>
    rw [ofTagged_annotationData_iff]
    constructor
    · rintro ⟨name, value, rfl, hfields⟩
      exact ⟨rfl, (Record.ofEntries_required_iff annotationRecord_field?_name
        (strict_other _ _)).1 hfields⟩
    · rintro ⟨hkind, hgiven⟩
      cases r <;> cases hkind
      exact ⟨_, _, rfl, (Record.ofEntries_required_iff annotationRecord_field?_name
        (strict_other _ _)).2 hgiven⟩
  | fragmentation =>
    rw [ofTagged_fragmentation_iff]
    constructor
    · rintro ⟨index, count, rfl, hfields⟩
      exact ⟨rfl, (Record.ofEntries_required_iff fragmentRecord_field?_name
        (strict_other _ _)).1 hfields⟩
    · rintro ⟨hkind, hgiven⟩
      cases r <;> cases hkind
      exact ⟨_, _, rfl, (Record.ofEntries_required_iff fragmentRecord_field?_name
        (strict_other _ _)).2 hgiven⟩
  | composition =>
    rw [ofTagged_composition_iff]
    constructor
    · rintro ⟨operator, rules, rfl, hfields⟩
      exact ⟨rfl, (Record.ofEntries_required_iff compositionRecord_field?_name
        (strict_other _ _)).1 hfields⟩
    · rintro ⟨hkind, hgiven⟩
      cases r <;> cases hkind
      exact ⟨_, _, rfl, (Record.ofEntries_required_iff compositionRecord_field?_name
        (strict_other _ _)).2 hgiven⟩

theorem givenBy_perm_iff {ps' : List (String × RulePart)} (h : ps.Perm ps') :
    r.GivenBy ps ↔ r.GivenBy ps' := by
  have hkeys {key : String} : key ∈ ps.map Prod.fst ↔ key ∈ ps'.map Prod.fst :=
    (h.map Prod.fst).mem_iff
  cases r with
  | simple attr s =>
    simp only [GivenBy, Source.GivenBy, Record.gives_perm_iff h, hkeys]
  | annotationData | fragmentation | composition =>
    simp only [GivenBy, Record.givesAll_perm_iff h]

/-- Entries that give a rule have the names of its fields for keys. -/
theorem GivenBy.mem_fields (h : r.GivenBy ps) : ∀ key ∈ ps.map Prod.fst, key ∈ r.kind.fields := by
  intro key hkey
  cases r with
  | simple attr s =>
    obtain ⟨f, rfl⟩ := h.1.exists_name hkey
    cases f <;> simp [kind, RuleKind.fields, Source.record, SourceKind.name]
  | annotationData =>
    obtain ⟨f, rfl⟩ := h.exists_name hkey
    cases f <;> simp [kind, RuleKind.fields, annotationRecord]
  | fragmentation =>
    obtain ⟨f, rfl⟩ := h.exists_name hkey
    cases f <;> simp [kind, RuleKind.fields, fragmentRecord]
  | composition =>
    obtain ⟨f, rfl⟩ := h.exists_name hkey
    cases f <;> simp [kind, RuleKind.fields, compositionRecord]

theorem GivenBy.nodup (h : r.GivenBy ps) : (ps.map Prod.fst).Nodup := by
  cases r with
  | simple attr s => exact h.1.nodup
  | annotationData | fragmentation | composition => exact h.nodup

/-! ## Tables -/

theorem keys_entryParts (es : List (String × Value)) :
    (entryParts numbered es).map Prod.fst = es.map Prod.fst := by
  rw [entryParts_eq_map, List.map_map]
  rfl

theorem entryParts_perm {es es' : List (String × Value)} (h : es.Perm es') :
    (entryParts numbered es).Perm (entryParts numbered es') := by
  rw [entryParts_eq_map, entryParts_eq_map]
  exact h.map _

/-- A table is read as a rule if it consists of the tag and of entries that give the rule. -/
theorem ofValue_table_iff {es : List (String × Value)} :
    ofValue numbered (.table es) = .ok r ↔
      ∃ v rest, es.Perm (("type", v) :: rest) ∧ RuleKind.ofValue numbered v = .ok r.kind ∧
        r.GivenBy (entryParts numbered rest) := by
  simp only [ofValue, bind_eq_ok_iff, Tagged.splitEntries_eq_ok_iff, entryParts_eq_map,
    List.filter_map, Function.comp_def]
  constructor
  · rintro ⟨_, ⟨p, hp, tag, htag, rfl⟩, hr⟩
    obtain ⟨⟨key, v⟩, htype, he⟩ := List.map_eq_singleton_iff.1 hp
    obtain ⟨rfl, rfl⟩ := Prod.mk.inj he
    obtain ⟨rfl, hgiven⟩ := ofTagged_entries_iff.1 hr
    rw [part_fst] at htag
    have hperm := List.filter_append_perm (fun e : String × Value => e.1 == "type") es
    rw [htype] at hperm
    exact ⟨v, _, hperm.symm, htag, hgiven⟩
  · rintro ⟨v, rest, hperm, htag, hgiven⟩
    -- No part of a rule has the key of the tag, so the entry in front is the only tag.
    have hne : ∀ e ∈ rest, e.1 ≠ "type" := fun e he =>
      RuleKind.ne_type_of_mem_fields (hgiven.mem_fields e.1 (by simpa using ⟨e.2, he⟩))
    obtain ⟨hnone, hall⟩ := Tagged.filter_tag hne
    have htype := hperm.filter fun e => e.1 == "type"
    have hrest := hperm.filter fun e => e.1 != "type"
    simp only [List.filter_cons, beq_self_eq_true, bne_self_eq_false, if_true, Bool.false_eq_true,
      if_false, hnone, hall, List.perm_singleton] at htype hrest
    refine ⟨_, ⟨part numbered v, by rw [htype]; rfl, r.kind, ?_, rfl⟩, ?_⟩
    · rwa [part_fst]
    · exact ofTagged_entries_iff.2 ⟨rfl, (givenBy_perm_iff (hrest.map _)).2 hgiven⟩

/-- The keys of a table are those of a rule of a kind: the tag, which says that kind, and fields of
the kind, none twice and with all that are required. -/
structure KeysFit (numbered : Int → Bool) (kind : RuleKind) (es : List (String × Value)) :
    Prop where
  nodup : (es.map Prod.fst).Nodup
  tag : ∃ v, ("type", v) ∈ es ∧ RuleKind.ofValue numbered v = .ok kind
  known : ∀ key ∈ es.map Prod.fst, key = "type" ∨ key ∈ kind.fields
  required : ∀ key ∈ kind.required, key ∈ es.map Prod.fst

theorem GivenBy.required_mem (h : r.GivenBy ps) :
    ∀ key ∈ r.kind.required, key ∈ ps.map Prod.fst := by
  cases r with
  | simple => exact List.forall_mem_nil _
  | annotationData =>
    exact List.forall_mem_cons.2 ⟨h.full .name, List.forall_mem_singleton.2 (h.full .value)⟩
  | fragmentation =>
    exact List.forall_mem_cons.2 ⟨h.full .index, List.forall_mem_singleton.2 (h.full .count)⟩
  | composition =>
    exact List.forall_mem_cons.2 ⟨h.full .rules, List.forall_mem_singleton.2 (h.full .operator)⟩

/-- Tables with other keys are not read. -/
theorem keysFit_of_ofValue {es : List (String × Value)} (h : ofValue numbered (.table es) = .ok r) :
    KeysFit numbered r.kind es := by
  obtain ⟨v, rest, hperm, hkind, hgiven⟩ := ofValue_table_iff.1 h
  have hkeys := hperm.map Prod.fst
  have hfields := hgiven.mem_fields
  have hnodup := hgiven.nodup
  have hrequired := hgiven.required_mem
  rw [keys_entryParts] at hfields hnodup hrequired
  refine ⟨hkeys.nodup_iff.2 (List.nodup_cons.2 ⟨?_, hnodup⟩),
    ⟨v, hperm.mem_iff.2 List.mem_cons_self, hkind⟩, ?_, ?_⟩
  · exact fun htype => RuleKind.ne_type_of_mem_fields (hfields _ htype) rfl
  · exact fun key hkey => (List.mem_cons.1 (hkeys.mem_iff.1 hkey)).imp_right (hfields key)
  · exact fun key hkey => hkeys.mem_iff.2 (List.mem_cons_of_mem _ (hrequired key hkey))

theorem KeysFit.ofValue_of_mem {kind : RuleKind} {es : List (String × Value)}
    (h : KeysFit numbered kind es) {e : String × Value} (he : e ∈ es) (htype : e.1 = "type") :
    RuleKind.ofValue numbered e.2 = .ok kind := by
  obtain ⟨v, hv, hkind⟩ := h.tag
  obtain rfl : e = ("type", v) := List.inj_on_of_nodup_map h.nodup he hv htype
  exact hkind

/-! ## Rules in rules -/

/-- The items of an array are read as rules one by one. -/
theorem ofPart_eq_ok_iff {items : List Value} {rules : List Rule} :
    ofPart (part numbered (.array items)) = .ok rules ↔
      List.Forall₂ (fun v r => ofValue numbered v = .ok r) items rules := by
  show (ofValues numbered items).mapM id = .ok rules ↔ _
  rw [ofValues_eq_map, mapM_eq_ok_iff, List.forall₂_map_left_iff]
  rfl

/-- Only compositions are given by entries with rules. -/
theorem givenBy_filters_iff {p : RulePart} :
    r.GivenBy (("filters", p) :: ps) ↔
      ∃ operator rules, r = .composition operator rules ∧ ofPart p = .ok rules ∧
        "filters" ∉ ps.map Prod.fst ∧ "op" ∈ ps.map Prod.fst ∧
        compositionRecord.Gives readCompositionField ps (compositionHeld operator rules) := by
  constructor
  · intro h
    have hkey : "filters" ∈ r.kind.fields := h.mem_fields _ List.mem_cons_self
    cases r with
    | simple | annotationData | fragmentation => simp [kind, RuleKind.fields] at hkey
    | composition operator rules =>
      obtain ⟨hnew, hrules, hgives⟩ :=
        (Record.gives_cons_iff compositionRecord_field?_name (f := .rules)).1 h.toGives
      refine ⟨operator, rules, rfl, hrules, hnew, ?_, hgives⟩
      have hne : compositionRecord.name .operator ≠ "filters" := by decide
      exact List.mem_of_ne_of_mem hne (h.full .operator)
  · rintro ⟨operator, rules, rfl, hrules, hnew, hoperator, hgives⟩
    refine ⟨(Record.gives_cons_iff compositionRecord_field?_name (f := .rules)).2
      ⟨hnew, hrules, hgives⟩, fun f => ?_⟩
    cases f with
    | rules => exact List.mem_cons_self
    | operator => exact List.mem_cons_of_mem _ hoperator

theorem exists_kind_of_array {tag : Value} {items : List Value}
    (h : ofValue numbered (.array (tag :: items)) = .ok r) :
    ∃ kind, RuleKind.ofValue numbered tag = .ok kind := by
  obtain ⟨t, ht, -⟩ := bind_eq_ok_iff.1 h
  obtain ⟨kind, hkind, -⟩ := bind_eq_ok_iff.1 ht
  exact ⟨kind, part_fst numbered tag ▸ hkind⟩

/-- Only compositions have an array behind the tag. -/
theorem ofTagged_array_iff {tag : RuleKind} {items : List Value}
    {read : List (Except Mismatch Rule)} {rest : List RulePart} :
    ofTagged ⟨tag, .inr ((.array items, read) :: rest)⟩ = .ok r ↔
      ∃ operator rules o, r = .composition operator rules ∧ tag = .composition ∧
        read.mapM id = .ok rules ∧ rest = [o] ∧ o.1.asVariant Operator.ofName = .ok operator := by
  cases tag with
  | simple | annotationData | fragmentation =>
    constructor
    · intro h
      cases h
    · rintro ⟨_, _, _, -, hkind, -⟩
      cases hkind
  | composition =>
    have hitems (operator : Operator) (rules : List Rule) : (∃ fields,
        compositionRecord.ofItems (strict compositionRecord readCompositionField)
          ((.array items, read) :: rest) = .ok fields ∧
            ∀ f, fields.required f = .ok (compositionHeld operator rules f)) ↔
        read.mapM id = .ok rules ∧
          ∃ o, rest = [o] ∧ o.1.asVariant Operator.ofName = .ok operator := by
      rw [Record.ofItems_required_iff (by decide) fun f => by cases f <;> decide]
      constructor
      · intro h
        cases h with
        | cons hrules hrest =>
          cases hrest with
          | cons ho hnil =>
            cases hnil
            exact ⟨hrules, _, rfl, ho⟩
      · rintro ⟨hrules, o, rfl, ho⟩
        exact .cons hrules (.cons ho .nil)
    rw [ofTagged_composition_iff]
    constructor
    · rintro ⟨operator, rules, rfl, hfields⟩
      obtain ⟨hrules, o, rfl, ho⟩ := (hitems operator rules).1 hfields
      exact ⟨operator, rules, o, rfl, rfl, hrules, rfl, ho⟩
    · rintro ⟨operator, rules, o, rfl, -, hrules, rfl, ho⟩
      exact ⟨operator, rules, rfl, (hitems operator rules).2 ⟨hrules, o, rfl, ho⟩⟩

/-- An array with an array behind the tag is read as a composition of the rules in that array. -/
theorem ofValue_array_iff {tag : Value} {items rest : List Value} :
    ofValue numbered (.array (tag :: .array items :: rest)) = .ok r ↔
      ∃ operator rules o, r = .composition operator rules ∧
        RuleKind.ofValue numbered tag = .ok .composition ∧
        List.Forall₂ (fun v r => ofValue numbered v = .ok r) items rules ∧ rest = [o] ∧
        o.asVariant Operator.ofName = .ok operator := by
  simp only [ofValue, Tagged.splitItems, itemParts_eq_map, List.map_cons, bind_eq_ok_iff,
    pure_eq_ok_iff, part_fst]
  constructor
  · rintro ⟨_, ⟨kind, hkind, rfl⟩, hr⟩
    obtain ⟨operator, rules, p, rfl, rfl, hrules, hrest, hp⟩ := ofTagged_array_iff.1 hr
    obtain ⟨o, rfl, rfl⟩ := List.map_eq_singleton_iff.1 hrest
    rw [part_fst] at hp
    exact ⟨operator, rules, o, rfl, hkind, ofPart_eq_ok_iff.1 hrules, rfl, hp⟩
  · rintro ⟨operator, rules, o, rfl, hkind, hrules, rfl, ho⟩
    refine ⟨_, ⟨.composition, hkind, rfl⟩, ofTagged_array_iff.2 ⟨operator, rules, part numbered o,
      rfl, rfl, ofPart_eq_ok_iff.2 hrules, rfl, ?_⟩⟩
    rwa [part_fst]

/-! ## Texts -/

/-- The tag of a rule is a string, wherever it stands in a table or at the front of an array. -/
def TagNamed : Value → Prop
  | .table es => ∀ e ∈ es, e.1 = "type" → ∃ s, e.2 = .string s
  | .array (tag :: _) => ∃ s, tag = .string s
  | _ => True

theorem isTag_iff {v : Value} {kind : RuleKind} (h : RuleKind.ofValue numbered v = .ok kind) :
    Tree.IsTag RuleKind.ofName v ↔ ∃ s, v = .string s := by
  constructor
  · rintro ⟨s, -, rfl, -⟩
    exact ⟨s, rfl⟩
  · rintro ⟨s, rfl⟩
    exact ⟨s, kind, rfl, h⟩

/-- If a value is read as a rule, its tag is a string and known as soon as it is a string. -/
theorem hasTag_iff_tagNamed {v : Value} (h : ofValue numbered v = .ok r) :
    Tree.HasTag "type" RuleKind.ofName v ↔ TagNamed v := by
  cases v with
  | null | bool | int | float | string => cases h
  | array items =>
    cases items with
    | nil => cases h
    | cons tag rest =>
      obtain ⟨kind, hkind⟩ := exists_kind_of_array h
      exact isTag_iff hkind
  | table es =>
    have hkeys := keysFit_of_ofValue h
    obtain ⟨v, hv, -⟩ := hkeys.tag
    have hcount : (es.map Prod.fst).count "type" = 1 :=
      List.count_eq_one_of_mem hkeys.nodup (List.mem_map_of_mem hv)
    exact (and_iff_left hcount).trans <| forall₂_congr fun e he =>
      imp_congr_right fun htype => isTag_iff (hkeys.ofValue_of_mem he htype)

/-- A text is read as a rule if the value that it denotes is, and is not too deep, and has a string
for its tag. -/
theorem ofString_eq_ok_iff {text : String} :
    ofString text = .ok r ↔
      ∃ v, Denotes text v ∧ v.depth ≤ Json.depthLimit ∧ TagNamed v ∧
        ofValue numberedInJson v = .ok r := by
  rw [ofString, Document.read_eq_ok_iff, ofTree, bind_eq_ok_iff]
  simp only [Tree.toTagged_eq_ok_iff (Document.plain_ofString text), Json.ofShape,
    mapError_eq_ok_iff]
  constructor
  · rintro ⟨⟨v, ⟨hroot, hdepth, htag⟩, hr⟩, hcomplete⟩
    have htext : Denotes text v := by rw [Denotes, ← hroot, ← hcomplete]
    exact ⟨v, htext, hdepth, (hasTag_iff_tagNamed hr).1 htag, hr⟩
  · rintro ⟨v, htext, hdepth, htag, hr⟩
    rw [htext]
    exact ⟨⟨v, ⟨rfl, hdepth, (hasTag_iff_tagNamed hr).2 htag⟩, hr⟩, rfl⟩

end Rule

end TestSelection
