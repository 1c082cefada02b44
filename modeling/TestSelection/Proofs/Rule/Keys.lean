import TestSelection.Proofs.Rule.Reading
import TestSelection.Proofs.Rule.RoundTrip
import TestSelection.Proofs.Rule.Validity

/-!
# The keys of rules

**Theorem (`Rule.ofString_keys`).** In a text that is read as a rule, each table at the place of a
rule has the tag and the fields of its kind for keys, none of them twice and none left out that is
required (`Rule.KeysFit`). So no field is passed over, however deep the rule stands. And such a text
is read as the same rule if the keys of these tables are put into another order, and if absent
sources are added or left out as nulls (`Rule.Rearranged`).

Both halves follow from what a table is read as (`Rule.ofValue_table_iff`), which says nothing about
the order of the entries. The first is carried from place to place by an induction on the place, the
second by an induction on the steps of the rearrangement: each step keeps all that can be read from
the value, its depth and its tag.
-/

namespace TestSelection.Rule

open Json (Denotes)

variable {v w : Value} {r : Rule} {numbered : Int → Bool} {ps : List (String × RulePart)}

/-! ## Entries in another order -/

theorem ofValue_table_perm_iff {es es' : List (String × Value)} (h : es.Perm es') :
    ofValue numbered (.table es) = .ok r ↔ ofValue numbered (.table es') = .ok r := by
  rw [ofValue_table_iff, ofValue_table_iff]
  constructor
  · rintro ⟨tag, rest, hperm, hr⟩
    exact ⟨tag, rest, h.symm.trans hperm, hr⟩
  · rintro ⟨tag, rest, hperm, hr⟩
    exact ⟨tag, rest, h.trans hperm, hr⟩

/-- An entry in front that is not the tag gives a part of the rule. -/
theorem ofValue_table_cons_iff {key : String} {v : Value} {es : List (String × Value)}
    (hkey : key ≠ "type") :
    ofValue numbered (.table ((key, v) :: es)) = .ok r ↔
      ∃ tag rest, es.Perm (("type", tag) :: rest) ∧ RuleKind.ofValue numbered tag = .ok r.kind ∧
        r.GivenBy ((key, part numbered v) :: entryParts numbered rest) := by
  rw [ofValue_table_iff]
  constructor
  · rintro ⟨tag, rest, hperm, hkind, hgiven⟩
    have hv : (key, v) ∈ rest :=
      List.mem_of_ne_of_mem (by simp [hkey]) (hperm.mem_iff.1 List.mem_cons_self)
    obtain ⟨rest', hrest⟩ := (List.singleton_sublist.2 hv).exists_perm_append
    have hfront : ((key, v) :: es).Perm ((key, v) :: ("type", tag) :: rest') :=
      (hperm.trans (hrest.cons _)).trans (.swap _ _ _)
    exact ⟨tag, rest', hfront.cons_inv, hkind, (givenBy_perm_iff (entryParts_perm hrest)).1 hgiven⟩
  · rintro ⟨tag, rest, hperm, hkind, hgiven⟩
    exact ⟨tag, (key, v) :: rest, (hperm.cons _).trans (.swap _ _ _), hkind, hgiven⟩

/-! ## Places -/

/-- The places of rules in a value: the value itself, the items under `filters` in a table, and the
items of an array behind the tag of an array. -/
inductive Place : Value → Value → Prop
  | here (v : Value) : Place v v
  | table {es : List (String × Value)} {items : List Value} {v w : Value}
      (hitems : ("filters", .array items) ∈ es) (hv : v ∈ items) (h : Place v w) :
      Place (.table es) w
  | array {tag : Value} {items rest : List Value} {v w : Value} (hv : v ∈ items)
      (h : Place v w) : Place (.array (tag :: .array items :: rest)) w

theorem mem_nodesOf {rules : List Rule} {x y : Rule} (hx : x ∈ rules) (hy : y ∈ x.nodes) :
    y ∈ nodesOf rules := by
  induction rules with
  | nil => cases hx
  | cons z rules ih =>
    rw [nodesOf, List.mem_append]
    rcases List.mem_cons.1 hx with rfl | hx
    · exact .inl hy
    · exact .inr (ih hx)

theorem self_mem_nodes (r : Rule) : r ∈ r.nodes := by
  cases r <;> exact List.mem_cons_self

/-- What stands under `filters` in a table are the rules of a composition. -/
theorem rules_of_table {es : List (String × Value)} {items : List Value}
    (h : ofValue numbered (.table es) = .ok r) (hitems : ("filters", .array items) ∈ es) :
    ∃ operator rules, r = .composition operator rules ∧
      List.Forall₂ (fun v r => ofValue numbered v = .ok r) items rules := by
  obtain ⟨rest, hperm⟩ := (List.singleton_sublist.2 hitems).exists_perm_append
  rw [ofValue_table_perm_iff hperm] at h
  obtain ⟨_, _, -, -, hgiven⟩ := (ofValue_table_cons_iff (by decide)).1 h
  obtain ⟨operator, rules, rfl, hrules, -⟩ := givenBy_filters_iff.1 hgiven
  exact ⟨operator, rules, rfl, ofPart_eq_ok_iff.1 hrules⟩

/-- What stands at the place of a rule is read as one of the rules. -/
theorem Place.exists_node (hw : Place v w) (h : ofValue numbered v = .ok r) :
    ∃ x ∈ r.nodes, ofValue numbered w = .ok x := by
  induction hw generalizing r with
  | here v => exact ⟨r, r.self_mem_nodes, h⟩
  | table hitems hv _ ih =>
    obtain ⟨operator, rules, rfl, hrules⟩ := rules_of_table h hitems
    obtain ⟨x, hx, hvx⟩ := (Paired.of_forall₂ hrules).exists_right hv
    obtain ⟨y, hy, hwy⟩ := ih hvx
    exact ⟨y, List.mem_cons_of_mem _ (mem_nodesOf hx hy), hwy⟩
  | array hv _ ih =>
    obtain ⟨operator, rules, _, rfl, -, hrules, -⟩ := ofValue_array_iff.1 h
    obtain ⟨x, hx, hvx⟩ := (Paired.of_forall₂ hrules).exists_right hv
    obtain ⟨y, hy, hwy⟩ := ih hvx
    exact ⟨y, List.mem_cons_of_mem _ (mem_nodesOf hx hy), hwy⟩

/-! ## Other orders -/

/-- The same rule, written in another way: keys in another order, absent sources as nulls, and this
at the places of rules inside, too. -/
inductive Rearranged : Value → Value → Prop
  | refl (v : Value) : Rearranged v v
  | symm {v w : Value} (h : Rearranged v w) : Rearranged w v
  | trans {u v w : Value} (huv : Rearranged u v) (hvw : Rearranged v w) : Rearranged u w
  | keys {es es' : List (String × Value)} (h : es.Perm es') : Rearranged (.table es) (.table es')
  | null {es : List (String × Value)} {tag : Value} {attr : Attribute} {f : SourceKind}
      (htag : ("type", tag) ∈ es)
      (hkind : RuleKind.ofValue numberedInJson tag = .ok (.simple attr))
      (hf : f.name ∉ es.map Prod.fst) :
      Rearranged (.table es) (.table ((f.name, .null) :: es))
  | table {v w : Value} (h : Rearranged v w) (before after : List Value)
      (es : List (String × Value)) :
      Rearranged (.table (("filters", .array (before ++ v :: after)) :: es))
        (.table (("filters", .array (before ++ w :: after)) :: es))
  | array {v w : Value} (h : Rearranged v w) (tag : Value) (before after rest : List Value) :
      Rearranged (.array (tag :: .array (before ++ v :: after) :: rest))
        (.array (tag :: .array (before ++ w :: after) :: rest))

/-- A source written as null is an absent source. -/
theorem givenBy_null_iff {attr : Attribute} (hkind : r.kind = .simple attr) {f : SourceKind}
    (hf : f.name ∉ ps.map Prod.fst) :
    r.GivenBy ((f.name, part numbered .null) :: ps) ↔ r.GivenBy ps := by
  cases r with
  | annotationData | fragmentation | composition => cases hkind
  | simple attr s =>
    have hnull : Source.readField f (part numbered .null) = .ok (Source.none.held f) := by
      cases f <;> rfl
    constructor
    · rintro ⟨hgives, habsent⟩
      obtain ⟨-, hheld, hgives⟩ := (Record.gives_cons_iff Source.field?_name).1 hgives
      rw [hnull, Except.ok.injEq] at hheld
      refine ⟨hgives, fun g hg => ?_⟩
      by_cases h : g = f
      · rw [h, hheld]
      · refine habsent g (List.not_mem_cons_of_ne_of_not_mem ?_ hg)
        exact fun hname => h (Record.name_injective Source.field?_name hname)
    · rintro ⟨hgives, habsent⟩
      have hheld : Source.readField f (part numbered .null) = .ok (s.held f) := by
        rw [hnull, habsent f hf]
      exact ⟨(Record.gives_cons_iff Source.field?_name).2 ⟨hf, hheld, hgives⟩,
        fun g hg => habsent g (List.not_mem_of_not_mem_cons hg)⟩

/-- An absent source of a simple rule may be added as null. -/
theorem ofValue_null_iff {es : List (String × Value)} {tag : Value} {attr : Attribute}
    {f : SourceKind} (htag : ("type", tag) ∈ es)
    (hkind : RuleKind.ofValue numbered tag = .ok (.simple attr)) (hf : f.name ∉ es.map Prod.fst) :
    ofValue numbered (.table es) = .ok r ↔
      ofValue numbered (.table ((f.name, .null) :: es)) = .ok r := by
  have hname : f.name ≠ "type" := by cases f <;> simp [SourceKind.name]
  -- The tag says the kind of whatever is read from the entries.
  have hattr {es' : List (String × Value)} (htag : ("type", tag) ∈ es')
      (h : ofValue numbered (.table es') = .ok r) : r.kind = .simple attr :=
    Except.ok.inj (((keysFit_of_ofValue h).ofValue_of_mem htag rfl).symm.trans hkind)
  have hnew {tag' : Value} {rest : List (String × Value)}
      (hperm : es.Perm (("type", tag') :: rest)) :
      f.name ∉ (entryParts numbered rest).map Prod.fst := by
    rw [keys_entryParts]
    exact fun hmem => hf ((hperm.map Prod.fst).mem_iff.2 (List.mem_cons_of_mem _ hmem))
  constructor
  · intro h
    obtain ⟨tag', rest, hperm, hr, hgiven⟩ := ofValue_table_iff.1 h
    exact (ofValue_table_cons_iff hname).2
      ⟨tag', rest, hperm, hr, (givenBy_null_iff (hattr htag h) (hnew hperm)).2 hgiven⟩
  · intro h
    obtain ⟨tag', rest, hperm, hr, hgiven⟩ := (ofValue_table_cons_iff hname).1 h
    have hr' := hattr (List.mem_cons_of_mem _ htag) h
    exact ofValue_table_iff.2
      ⟨tag', rest, hperm, hr, (givenBy_null_iff hr' (hnew hperm)).1 hgiven⟩

/-- What can be read from a list of values can be read if the same can be read from one of them. -/
theorem forall₂_read_congr (h : ∀ r, ofValue numbered v = .ok r ↔ ofValue numbered w = .ok r)
    {before after : List Value} {rules : List Rule} :
    List.Forall₂ (fun v r => ofValue numbered v = .ok r) (before ++ v :: after) rules ↔
      List.Forall₂ (fun v r => ofValue numbered v = .ok r) (before ++ w :: after) rules := by
  induction before generalizing rules with
  | nil => simp only [List.nil_append, List.forall₂_cons_left_iff, h]
  | cons x before ih => simp only [List.cons_append, List.forall₂_cons_left_iff, ih]

namespace Rearranged

/-- What is rearranged is read as the same rule. -/
theorem ofValue_iff (h : Rearranged v w) :
    ∀ r, ofValue numberedInJson v = .ok r ↔ ofValue numberedInJson w = .ok r := by
  induction h with
  | refl v => exact fun r => Iff.rfl
  | symm _ ih => exact fun r => (ih r).symm
  | trans _ _ ihuv ihvw => exact fun r => (ihuv r).trans (ihvw r)
  | keys h => exact fun r => ofValue_table_perm_iff h
  | null htag hkind hf => exact fun r => ofValue_null_iff htag hkind hf
  | table _ before after es ih =>
    intro r
    rw [ofValue_table_cons_iff (by decide), ofValue_table_cons_iff (by decide)]
    simp only [givenBy_filters_iff, ofPart_eq_ok_iff, forall₂_read_congr ih]
  | array _ tag before after rest ih =>
    intro r
    simp only [ofValue_array_iff, forall₂_read_congr ih]

theorem depthOfItems_congr (h : v.depth = w.depth) (before after : List Value) :
    Value.depthOfItems (before ++ v :: after) = Value.depthOfItems (before ++ w :: after) := by
  refine eq_of_forall_ge_iff fun n => ?_
  simp only [Value.depthOfItems_le_iff, List.forall_mem_append, List.forall_mem_cons, h]

theorem depth_eq (h : Rearranged v w) : v.depth = w.depth := by
  induction h with
  | refl v => rfl
  | symm _ ih => exact ih.symm
  | trans _ _ ihuv ihvw => exact ihuv.trans ihvw
  | keys h =>
    rw [Value.depth, Value.depth, Nat.add_right_cancel_iff]
    refine eq_of_forall_ge_iff fun n => ?_
    simp only [Value.depthOfEntries_le_iff, h.mem_iff]
  | null => simp [Value.depth, Value.depthOfEntries]
  | table _ before after es ih =>
    simp only [Value.depth, Value.depthOfEntries, depthOfItems_congr ih]
  | array _ tag before after rest ih =>
    simp only [Value.depth, Value.depthOfItems, depthOfItems_congr ih]

theorem tagNamed_iff (h : Rearranged v w) : TagNamed v ↔ TagNamed w := by
  induction h with
  | refl v => exact Iff.rfl
  | symm _ ih => exact ih.symm
  | trans _ _ ihuv ihvw => exact ihuv.trans ihvw
  | keys h => simp only [TagNamed, h.mem_iff]
  | @null es tag attr f htag hkind hf =>
    have hname : f.name ≠ "type" := by cases f <;> simp [SourceKind.name]
    simp [TagNamed, hname]
  | table | array => simp [TagNamed]

end Rearranged

/-- In a text that is read as a rule, the tables at the places of rules have the keys of rules, and
the text is read as the same rule if it is rearranged. -/
theorem ofString_keys {text : String} (h : ofString text = .ok r) :
    (∃ v, Denotes text v) ∧
      ∀ v, Denotes text v →
        (∀ w, Place v w → ∃ x ∈ r.nodes, ofValue numberedInJson w = .ok x ∧
          ∀ es, w = .table es → KeysFit numberedInJson x.kind es) ∧
        ∀ v' text', Rearranged v v' → Denotes text' v' → ofString text' = .ok r := by
  obtain ⟨v, hv, hdepth, htag, hr⟩ := ofString_eq_ok_iff.1 h
  refine ⟨⟨v, hv⟩, fun v' hv' => ?_⟩
  obtain rfl := hv.unique hv'
  refine ⟨fun w hw => ?_, fun v' text' harranged htext' => ?_⟩
  · obtain ⟨x, hx, hwx⟩ := hw.exists_node hr
    refine ⟨x, hx, hwx, ?_⟩
    rintro es rfl
    exact keysFit_of_ofValue hwx
  · exact ofString_eq_ok_iff.2 ⟨v', htext', harranged.depth_eq ▸ hdepth,
      harranged.tagNamed_iff.1 htag, (harranged.ofValue_iff r).1 hr⟩

namespace Sample

/-- A simple rule. -/
def inner : Rule := .simple .package (.ofValues ["a"])

/-- A rule around it. -/
def outer : Rule := .composition .union [inner]

/-- What is written for the rule inside, with a null and the tag at the end. -/
def innerValue : Value :=
  .table
    [("file", .null), ("values", .array [.string "a"]), ("type", .string "package")]

/-- The same for the rule around it. -/
def outerValue : Value :=
  .table
    [("op", .string "union"), ("filters", .array [innerValue]), ("type", .string "composition")]

theorem rearranged_inner : Rearranged inner.toValue innerValue := by
  have hnull : Rearranged inner.toValue (.table (("file", .null) ::
      [("type", .string "package"), ("values", .array [.string "a"])])) :=
    .null (f := .file) List.mem_cons_self rfl (by decide)
  exact hnull.trans (.keys ((List.Perm.swap _ _ _).cons _))

theorem rearranged_outer : Rearranged outer.toValue outerValue := by
  have hfront : Rearranged outer.toValue (.table [("filters", .array [inner.toValue]),
      ("type", .string "composition"), ("op", .string "union")]) := .keys (.swap _ _ _)
  have hinner := Rearranged.table rearranged_inner [] []
    [("type", .string "composition"), ("op", .string "union")]
  exact (hfront.trans hinner).trans (.keys (List.perm_append_singleton _ [_, _]))

theorem exact_outerValue : outerValue.Exact := by
  have hvalues : (Value.array [.string "a"]).Exact := .array (by simpa using .string "a")
  have hinner : innerValue.Exact :=
    .table (by simpa [innerValue] using ⟨.null, hvalues, .string "package"⟩)
  have hrules : (Value.array [innerValue]).Exact := .array (by simpa using hinner)
  exact .table (by simpa [outerValue] using ⟨.string "union", hrules, .string "composition"⟩)

end Sample

theorem ofString_keys_sample :
    ofString (Json.write .pretty Sample.outer.toValue) = .ok Sample.outer ∧
      (∃ x ∈ Sample.outer.nodes, ofValue numberedInJson Sample.inner.toValue = .ok x ∧
        KeysFit numberedInJson x.kind [("type", .string "package"),
          ("values", .array [.string "a"])]) ∧
      ofString (Json.write .compact Sample.outerValue) = .ok Sample.outer := by
  have htext := ofString_write .pretty (r := Sample.outer) (by decide +kernel)
  obtain ⟨hplaces, horders⟩ :=
    (ofString_keys htext).2 _ (Json.denotes_write .pretty Sample.outer.exact_toValue)
  have hplace : Place Sample.outer.toValue Sample.inner.toValue :=
    .table (List.mem_cons_of_mem _ List.mem_cons_self) List.mem_cons_self (.here _)
  obtain ⟨x, hx, hinner, hkeys⟩ := hplaces _ hplace
  exact ⟨htext, ⟨x, hx, hinner, hkeys _ rfl⟩, horders _ _ Sample.rearranged_outer
    (Json.denotes_write .compact Sample.exact_outerValue)⟩

end TestSelection.Rule
