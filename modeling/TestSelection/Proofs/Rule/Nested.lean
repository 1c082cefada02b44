import TestSelection.Proofs.Rule.Reading
import TestSelection.Proofs.Rule.RoundTrip

/-!
# Rules inside compositions

**Theorem (`Rule.ofString_nested`).** A rule inside a composition is read as what it is in a text of
its own, if the tag of its table or array is a string. The number of compositions around it makes no
difference. If the tag is a number, the text of the rule is refused, but inside a composition the
number stands for the name of a kind: the composition is read as if that name stood there.

From values, rules are read in the same way wherever they stand (`Rule.ofValue_around`), and there a
number is as good as the name (`Rule.ofValue_nameTags`). The difference is in the step from text to
value, which looks at the outermost tag only and asks for a string
(`Rule.ofString_iff_of_denotes`).
-/

namespace TestSelection.Rule

open Json (Denotes)

variable {v : Value} {r s : Rule} {numbered : Int → Bool} {n : Nat}

/-! ## A composition of one rule -/

/-- The value of a composition around one rule. -/
def around (v : Value) : Value :=
  .table [("type", .string "composition"), ("op", .string "union"), ("filters", .array [v])]

/-- A composition of one rule. -/
def alone (r : Rule) : Rule := .composition .union [r]

theorem ofValue_around (numbered : Int → Bool) (v : Value) :
    ofValue numbered (around v) = (ofValue numbered v).map alone := by
  rw [around, ofValue]
  simp only [entryParts, part, ofValues]
  cases ofValue numbered v <;> rfl

theorem ofValue_iterate_around (numbered : Int → Bool) (v : Value) (n : Nat) :
    ofValue numbered (around^[n] v) = (ofValue numbered v).map alone^[n] := by
  induction n with
  | zero => cases h : ofValue numbered v <;> simp [h, Except.map]
  | succ n ih =>
    rw [Function.iterate_succ_apply', ofValue_around, ih]
    cases ofValue numbered v with
    | error m => rfl
    | ok r => simp [Except.map, Function.iterate_succ_apply']

theorem depth_around (v : Value) : (around v).depth = v.depth + 2 := by
  simp [around, Value.depth, Value.depthOfEntries, Value.depthOfItems]

theorem tagNamed_around (v : Value) : TagNamed (around v) := by
  simp [around, TagNamed]

/-! ## Names for numbers -/

/-- The name of the kind that a tag stands for. -/
def nameTag (tag : Value) : Value :=
  match RuleKind.ofValue numberedInJson tag with
  | .ok kind => .string kind.name
  | .error _ => tag

/-- An entry with the name of a kind in the place of its number, if it is the tag. -/
def nameEntry (e : String × Value) : String × Value :=
  if e.1 = "type" then (e.1, nameTag e.2) else e

/-- A value with the name of its kind in the place of the number. -/
def nameTags : Value → Value
  | .table es => .table (es.map nameEntry)
  | .array (tag :: items) => .array (nameTag tag :: items)
  | v => v

theorem ofValue_nameTag (tag : Value) :
    RuleKind.ofValue numberedInJson (nameTag tag) = RuleKind.ofValue numberedInJson tag := by
  unfold nameTag
  split
  · next kind h =>
    rw [h]
    exact kind.ofName_name
  · rfl

theorem nameEntry_fst (e : String × Value) : (nameEntry e).1 = e.1 := by
  unfold nameEntry
  split_ifs <;> rfl

theorem nameEntry_of_type {e : String × Value} (h : e.1 = "type") :
    nameEntry e = (e.1, nameTag e.2) := if_pos h

theorem nameEntry_of_ne {e : String × Value} (h : e.1 ≠ "type") : nameEntry e = e := if_neg h

/-- Read from a value, a number says the same as the name. -/
theorem ofValue_nameTags (v : Value) :
    ofValue numberedInJson (nameTags v) = ofValue numberedInJson v := by
  cases v with
  | null | bool | int | float | string => rfl
  | array items =>
    cases items with
    | nil => rfl
    | cons tag items =>
      simp only [nameTags, ofValue, itemParts, Tagged.splitItems, part_fst, ofValue_nameTag]
  | table es =>
    have hsplit : Tagged.splitEntries "type" (fun p => RuleKind.ofValue numberedInJson p.1)
          (entryParts numberedInJson (es.map nameEntry)) =
        Tagged.splitEntries "type" (fun p => RuleKind.ofValue numberedInJson p.1)
          (entryParts numberedInJson es) := by
      -- The tags say the same, and the entries beside them are the same.
      apply Tagged.splitEntries_congr <;>
        simp only [entryParts_eq_map, List.filter_map, List.map_map, Function.comp_def, part_fst,
          nameEntry_fst] <;>
        refine List.map_congr_left fun e he => ?_
      · have htype : e.1 = "type" := by simpa using (List.mem_filter.1 he).2
        rw [nameEntry_of_type htype, ofValue_nameTag]
      · have htype : e.1 ≠ "type" := by simpa using (List.mem_filter.1 he).2
        rw [nameEntry_of_ne htype]
    simp only [nameTags, ofValue, hsplit]

theorem depth_nameTag (tag : Value) : (nameTag tag).depth = tag.depth := by
  cases tag with
  | null | bool | float | array | table => rfl
  | int n =>
    unfold nameTag
    split <;> rfl
  | string s =>
    unfold nameTag
    split <;> rfl

theorem depth_nameTags (v : Value) : (nameTags v).depth = v.depth := by
  cases v with
  | null | bool | int | float | string => rfl
  | array items =>
    cases items with
    | nil => rfl
    | cons tag items => simp only [nameTags, Value.depth, Value.depthOfItems, depth_nameTag]
  | table es =>
    have hentry (e : String × Value) : (nameEntry e).2.depth = e.2.depth := by
      unfold nameEntry
      split_ifs
      · exact depth_nameTag e.2
      · rfl
    rw [nameTags, Value.depth, Value.depth, Nat.add_right_cancel_iff]
    refine eq_of_forall_ge_iff fun n => ?_
    simp only [Value.depthOfEntries_le_iff, List.forall_mem_map, hentry]

/-- If a value is read as a rule, the name of its kind can stand for its tag. -/
theorem tagNamed_nameTags (h : ofValue numberedInJson v = .ok r) : TagNamed (nameTags v) := by
  cases v with
  | null | bool | int | float | string => cases h
  | array items =>
    cases items with
    | nil => cases h
    | cons tag items =>
      obtain ⟨kind, hkind⟩ := exists_kind_of_array h
      exact ⟨kind.name, by rw [nameTag, hkind]⟩
  | table es =>
    have hkeys := keysFit_of_ofValue h
    refine List.forall_mem_map.2 fun e he htype => ?_
    rw [nameEntry_fst] at htype
    rw [nameEntry_of_type htype]
    exact ⟨r.kind.name, by rw [nameTag, hkeys.ofValue_of_mem he htype]⟩

/-! ## Texts -/

theorem ofString_iff_of_denotes {text : String} (htext : Denotes text v)
    (hdepth : v.depth ≤ Json.depthLimit) :
    ofString text = .ok r ↔ TagNamed v ∧ ofValue numberedInJson v = .ok r := by
  rw [ofString_eq_ok_iff]
  constructor
  · rintro ⟨w, hw, -, htag, hr⟩
    obtain rfl := hw.unique htext
    exact ⟨htag, hr⟩
  · rintro ⟨htag, hr⟩
    exact ⟨v, htext, hdepth, htag, hr⟩

theorem depth_iterate_around (v : Value) (n : Nat) :
    (around^[n] v).depth = v.depth + 2 * n := by
  induction n with
  | zero => rfl
  | succ n ih =>
    rw [Function.iterate_succ_apply', depth_around, ih]
    omega

/-- Inside compositions, a rule is read as it is in a text of its own that gives its kind by name.
If it does so itself, that is the same text; if not, the text is refused. -/
theorem ofString_nested {text outer : String} (htext : Denotes text v)
    (houter : Denotes outer (around^[n + 1] v))
    (hdepth : (around^[n + 1] v).depth ≤ Json.depthLimit) :
    (∀ named, Denotes named (nameTags v) →
      ∀ s, ofString outer = .ok s ↔ ∃ r, ofString named = .ok r ∧ s = alone^[n + 1] r) ∧
      (TagNamed v →
        ∀ s, ofString outer = .ok s ↔ ∃ r, ofString text = .ok r ∧ s = alone^[n + 1] r) ∧
      (¬ TagNamed v → ∀ r, ofString text ≠ .ok r) := by
  have hv : v.depth ≤ Json.depthLimit := by
    rw [depth_iterate_around] at hdepth
    omega
  -- The composition has its own tag by name, so only the value of the rule matters.
  have hinside (s : Rule) : ofString outer = .ok s ↔
      ∃ r, ofValue numberedInJson v = .ok r ∧ s = alone^[n + 1] r := by
    have htag : TagNamed (around^[n + 1] v) := by
      rw [Function.iterate_succ_apply']
      exact tagNamed_around _
    rw [ofString_iff_of_denotes houter hdepth, and_iff_right htag, ofValue_iterate_around]
    cases ofValue numberedInJson v with
    | error m =>
      constructor
      · intro h
        cases h
      · rintro ⟨_, h, -⟩
        cases h
    | ok r =>
      constructor
      · intro h
        exact ⟨r, rfl, (Except.ok.inj h).symm⟩
      · rintro ⟨_, ⟨⟩, rfl⟩
        rfl
  refine ⟨fun named hnamed s => ?_, fun htag s => ?_, fun htag r hr => ?_⟩
  · have hread (r : Rule) : ofString named = .ok r ↔ ofValue numberedInJson v = .ok r := by
      rw [ofString_iff_of_denotes hnamed (depth_nameTags v ▸ hv), ofValue_nameTags]
      exact and_iff_right_of_imp fun h => tagNamed_nameTags h
    simp only [hinside, hread]
  · simp only [hinside, ofString_iff_of_denotes htext hv, htag, true_and]
  · exact htag ((ofString_iff_of_denotes htext hv).1 hr).1

namespace Sample

/-- A rule on class names, with the number of the kind in the place of its name. -/
def numberedValue : Value := .table [("type", .int 0), ("values", .array [.string "a"])]

def classRule : Rule := .simple .className (.ofValues ["a"])

theorem exact_numberedValue : numberedValue.Exact := by
  have hvalues : (Value.array [.string "a"]).Exact := .array (by simpa using .string "a")
  exact .table (by simpa [numberedValue] using ⟨.int (by decide) (by decide), hvalues⟩)

theorem exact_around {v : Value} (hv : v.Exact) : (around v).Exact := by
  have hrules : (Value.array [v]).Exact := .array (by simpa using hv)
  exact .table (by simpa using ⟨.string "composition", .string "union", hrules⟩)

theorem nameTags_numberedValue : nameTags numberedValue = classRule.toValue := rfl

theorem denotes_numbered :
    Denotes (Json.write .compact numberedValue) numberedValue :=
  Json.denotes_write .compact exact_numberedValue

theorem denotes_around :
    Denotes (Json.write .compact (around numberedValue)) (around numberedValue) :=
  Json.denotes_write .compact (exact_around exact_numberedValue)

theorem not_tagNamed_numberedValue : ¬ TagNamed numberedValue := by
  simp [numberedValue, TagNamed]

end Sample

theorem ofString_nested_sample :
    ofString (Json.write .compact (around Sample.numberedValue)) = .ok (alone Sample.classRule) ∧
      ∀ r, ofString (Json.write .compact Sample.numberedValue) ≠ .ok r := by
  obtain ⟨hinside, -, halone⟩ := ofString_nested (n := 0) Sample.denotes_numbered
    Sample.denotes_around (by decide +kernel)
  have hnamed := Json.denotes_write .compact Sample.classRule.exact_toValue
  have hread := ofString_write .compact (r := Sample.classRule) (by decide +kernel)
  exact ⟨(hinside _ hnamed _).2 ⟨Sample.classRule, hread, rfl⟩,
    halone Sample.not_tagNamed_numberedValue⟩

/-- A text can be refused although a composition of what it says is read. -/
theorem not_nested_alike :
    ¬ ∀ (v : Value) (text outer : String), Denotes text v → Denotes outer (around v) →
      (around v).depth ≤ Json.depthLimit →
        ∀ s, ofString outer = .ok s ↔ ∃ r, ofString text = .ok r ∧ s = alone r := by
  intro h
  have hinside : ofValue numberedInJson (around Sample.numberedValue) =
      .ok (alone Sample.classRule) := by
    rw [ofValue_around, ← ofValue_nameTags, Sample.nameTags_numberedValue, ofValue_toValue]
    rfl
  have houter := (ofString_iff_of_denotes Sample.denotes_around (by decide +kernel)).2
    ⟨tagNamed_around _, hinside⟩
  obtain ⟨r, hr, -⟩ :=
    (h _ _ _ Sample.denotes_numbered Sample.denotes_around (by decide +kernel) _).1 houter
  exact Sample.not_tagNamed_numberedValue
    ((ofString_iff_of_denotes Sample.denotes_numbered (by decide +kernel)).1 hr).1

end TestSelection.Rule
