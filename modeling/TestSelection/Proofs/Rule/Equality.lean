import TestSelection.Proofs.Composition
import TestSelection.Rule.Equality

/-!
# What equality of rules means

Two rules are compared by counting: for each rule in the composition on the left, the rules that
are equal to it are counted on both sides. Counting is done with the very comparison that is being
defined, and on the left only what stands on the left is counted.

**Theorem (`beq_iff_parts`).** Two compositions are equal exactly if they have the same operator and
a bijection between their rules pairs equal ones only. All other rules are equal exactly if they are
of one kind and have equal fields. Equality of rules is an equivalence relation.

`Rule.Equal` says the same as a relation of its own, with a bijection at each level, and so it is
easily seen to be an equivalence (`Rule.Equal.equivalence`). That the comparison decides this
relation (`Rule.same_iff_equal`) is shown along the recursion of the comparison. There the rules of
two compositions are already known to be compared by an equivalence, which is what it takes for
counts on one side to be enough (`paired_iff_counts`).
-/

namespace TestSelection

/-! ## Fields -/

/-- Two sources have equal fields: expressions by their texts, files by their components. -/
structure Source.Equal (s t : Source) : Prop where
  regex : s.regex.map Regex.source = t.regex.map Regex.source
  values : s.values = t.values
  file : s.file.map Path.components = t.file.map Path.components

/-- Two rules without parts are of one kind and have equal fields. -/
inductive Rule.FieldsEqual : Rule → Rule → Prop
  | simple {attr : Attribute} {s t : Source} (sources : s.Equal t) :
      FieldsEqual (.simple attr s) (.simple attr t)
  | annotationData {n v m w : Regex} (name : n.source = m.source) (value : v.source = w.source) :
      FieldsEqual (.annotationData n v) (.annotationData m w)
  | fragmentation (index count : Int32) :
      FieldsEqual (.fragmentation index count) (.fragmentation index count)

/-- Expressions are equal if their texts are. -/
theorem Regex.source_injective : Function.Injective Regex.source :=
  fun _ _ => Regex.eq_of_source_eq

theorem sameFile_iff {p q : Option Path} :
    sameFile p q = true ↔ p.map Path.components = q.map Path.components := by
  cases p <;> cases q <;> simp [sameFile, Path.same]

namespace Source

variable {s t u : Source}

theorem same_iff_equal : s.same t = true ↔ s.Equal t := by
  have hregex : s.regex = t.regex ↔ s.regex.map Regex.source = t.regex.map Regex.source :=
    (Option.map_injective Regex.source_injective).eq_iff.symm
  rw [same, Bool.and_eq_true, Bool.and_eq_true, beq_iff_eq, beq_iff_eq, sameFile_iff, hregex]
  constructor
  · rintro ⟨⟨hr, hv⟩, hf⟩
    exact ⟨hr, hv, hf⟩
  · rintro ⟨hr, hv, hf⟩
    exact ⟨⟨hr, hv⟩, hf⟩

@[refl]
theorem Equal.refl (s : Source) : s.Equal s := ⟨rfl, rfl, rfl⟩

@[symm]
theorem Equal.symm (h : s.Equal t) : t.Equal s := ⟨h.regex.symm, h.values.symm, h.file.symm⟩

@[trans]
theorem Equal.trans (h : s.Equal t) (h' : t.Equal u) : s.Equal u :=
  ⟨h.regex.trans h'.regex, h.values.trans h'.values, h.file.trans h'.file⟩

end Source

namespace Rule

theorem fieldsEqual_simple_iff {attr attr' : Attribute} {s t : Source} :
    (Rule.simple attr s).FieldsEqual (.simple attr' t) ↔ attr = attr' ∧ s.Equal t := by
  constructor
  · rintro ⟨h⟩
    exact ⟨rfl, h⟩
  · rintro ⟨rfl, h⟩
    exact .simple h

theorem fieldsEqual_annotationData_iff {n v m w : Regex} :
    (Rule.annotationData n v).FieldsEqual (.annotationData m w) ↔
      n.source = m.source ∧ v.source = w.source := by
  constructor
  · intro h
    cases h with
    | annotationData name value => exact ⟨name, value⟩
  · rintro ⟨name, value⟩
    exact .annotationData name value

theorem fieldsEqual_fragmentation_iff {i n j m : Int32} :
    (Rule.fragmentation i n).FieldsEqual (.fragmentation j m) ↔ i = j ∧ n = m := by
  constructor
  · rintro ⟨⟩
    exact ⟨rfl, rfl⟩
  · rintro ⟨rfl, rfl⟩
    exact .fragmentation i n

theorem FieldsEqual.symm {a b : Rule} (h : a.FieldsEqual b) : b.FieldsEqual a := by
  cases h with
  | simple sources => exact .simple sources.symm
  | annotationData name value => exact .annotationData name.symm value.symm
  | fragmentation index count => exact .fragmentation index count

theorem FieldsEqual.trans {a b c : Rule} (h : a.FieldsEqual b) (h' : b.FieldsEqual c) :
    a.FieldsEqual c := by
  cases h with
  | simple sources =>
    cases h' with
    | simple sources' => exact .simple (sources.trans sources')
  | annotationData name value =>
    cases h' with
    | annotationData name' value' =>
      exact .annotationData (name.trans name') (value.trans value')
  | fragmentation index count => exact h'

/-! ## Equality, level by level -/

/-- Two rules are equal: by their fields, or as compositions whose rules are equal in pairs. -/
inductive Equal : Rule → Rule → Prop
  | fields {a b : Rule} (h : a.FieldsEqual b) : Equal a b
  | composition {operator : Operator} {rs ss : List Rule} (e : Fin rs.length ≃ Fin ss.length)
      (parts : ∀ i, Equal rs[i] ss[e i]) :
      Equal (.composition operator rs) (.composition operator ss)

namespace Equal

variable {a b c : Rule}

@[refl]
theorem refl (a : Rule) : a.Equal a := by
  induction a with
  | simple attr source => exact .fields (.simple (.refl source))
  | annotationData name value => exact .fields (.annotationData rfl rfl)
  | fragmentation index count => exact .fields (.fragmentation index count)
  | composition operator rules ih =>
    exact .composition (Equiv.refl _) fun i => ih rules[i] (List.getElem_mem _)

@[symm]
theorem symm (h : a.Equal b) : b.Equal a := by
  induction h with
  | fields h => exact .fields h.symm
  | composition e _ ih => exact .composition e.symm fun j => by simpa using ih (e.symm j)

@[trans]
theorem trans (h : a.Equal b) (h' : b.Equal c) : a.Equal c := by
  induction h generalizing c with
  | fields h =>
    cases h' with
    | fields h' => exact .fields (h.trans h')
    | composition e parts => cases h
  | composition e _ ih =>
    cases h' with
    | fields h' => cases h'
    | composition e' parts' => exact .composition (e.trans e') fun i => ih i (parts' (e i))

theorem equivalence : Equivalence Equal := ⟨refl, symm, trans⟩

end Equal

theorem equal_composition_iff {o p : Operator} {rs ss : List Rule} :
    (Rule.composition o rs).Equal (.composition p ss) ↔ o = p ∧ Paired Equal rs ss := by
  constructor
  · intro h
    cases h with
    | fields h => cases h
    | composition e parts => exact ⟨rfl, e, parts⟩
  · rintro ⟨rfl, e, parts⟩
    exact .composition e parts

/-- Rules that are not both compositions are equal if their fields are. -/
theorem equal_iff_fieldsEqual {a b : Rule}
    (h : ¬ (a.kind = .composition ∧ b.kind = .composition)) : a.Equal b ↔ a.FieldsEqual b := by
  constructor
  · intro hab
    cases hab with
    | fields hab => exact hab
    | composition e parts => exact absurd ⟨rfl, rfl⟩ h
  · exact Equal.fields

/-! ## The comparison -/

/-- Compositions are compared by counting. -/
theorem same_composition {o p : Operator} {rs ss : List Rule} :
    (Rule.composition o rs).same (.composition p ss) = true ↔
      o = p ∧ rs.length = ss.length ∧
        ∀ r ∈ rs, rs.countP (fun x => x.same r) = ss.countP fun x => x.same r := by
  have hcount (r : Rule) (xs : List Rule) :
      xs.attach.countP (fun x => x.1.same r) = xs.countP fun x => x.same r :=
    List.countP_attach (p := fun x : Rule => x.same r)
  rw [same]
  simp only [List.all_subtype, List.unattach_attach, hcount, Bool.and_eq_true, beq_iff_eq,
    List.all_eq_true, and_assoc]

/-- **The comparison decides equality.** -/
theorem same_iff_equal (a b : Rule) : a.same b = true ↔ a.Equal b := by
  classical
  -- The induction is on the calls of the comparison: in compositions, each rule on the left is
  -- compared with all rules on both sides.
  induction a, b using same.induct with
  | case1 attr s attr' t =>
    rw [same, Bool.and_eq_true, beq_iff_eq, Source.same_iff_equal,
      equal_iff_fieldsEqual (by simp [kind]), fieldsEqual_simple_iff]
  | case2 n v m w =>
    rw [same, Bool.and_eq_true, beq_iff_eq, beq_iff_eq,
      equal_iff_fieldsEqual (by simp [kind]), fieldsEqual_annotationData_iff,
      Regex.source_injective.eq_iff, Regex.source_injective.eq_iff]
  | case3 i n j m =>
    rw [same, Bool.and_eq_true, beq_iff_eq, beq_iff_eq,
      equal_iff_fieldsEqual (by simp [kind]), fieldsEqual_fragmentation_iff]
  | case4 o rs p ss ihl ihr =>
    rw [same_composition, equal_composition_iff, paired_iff_counts Equal.equivalence]
    -- On the rules of the two compositions, comparing is the same as being equal.
    have hcounts (r : Rule) (hr : r ∈ rs) :
        rs.countP (fun x => x.same r) = rs.countP (fun x => x.Equal r) ∧
          ss.countP (fun x => x.same r) = ss.countP fun x => x.Equal r :=
      ⟨List.countP_congr fun x hx => by simpa using ihl r hr x hx,
        List.countP_congr fun x hx => by simpa using ihr r hr x hx⟩
    refine and_congr_right fun _ => and_congr_right fun _ => forall₂_congr fun r hr => ?_
    rw [(hcounts r hr).1, (hcounts r hr).2]
  | case5 a b hsimple hdata hfragmentation hcomposition =>
    rw [same.eq_5 a b hsimple hdata hfragmentation hcomposition]
    refine iff_of_false Bool.false_ne_true fun h => ?_
    cases h with
    | fields h =>
      cases h with
      | simple => exact hsimple _ _ _ _ rfl rfl
      | annotationData => exact hdata _ _ _ _ rfl rfl
      | fragmentation => exact hfragmentation _ _ _ _ rfl rfl
    | composition => exact hcomposition _ _ _ _ rfl rfl

theorem beq_iff_equal {a b : Rule} : (a == b) = true ↔ a.Equal b := same_iff_equal a b

end Rule

/-! ## A sample -/

namespace Sample

/-- What neither a file of packages nor one of two buckets has. -/
def remainder : Rule :=
  .composition .subtract [.simple .package (.ofFile ⟨"lists/skip.txt"⟩), .fragmentation 0 2]

/-- The same in another order, with the path of the file written in another way. -/
def remainder' : Rule :=
  .composition .subtract [.fragmentation 0 2, .simple .package (.ofFile ⟨"lists/.//skip.txt"⟩)]

/-- One method of the remainder. -/
def nested : Rule := .composition .intersection [remainder, .simple .method (.ofValues ["testA"])]

/-- The same, in another order on both levels. -/
def reordered : Rule :=
  .composition .intersection [.simple .method (.ofValues ["testA"]), remainder']

/-- Two items in one order, and two in the other. -/
theorem paired_swap {α β : Type} {R : α → β → Prop} {a b : α} {c d : β} (had : R a d)
    (hbc : R b c) : Paired R [a, b] [c, d] := by
  refine ⟨Fin.revPerm, fun i => ?_⟩
  match i with
  | 0 => exact had
  | 1 => exact hbc

theorem remainder_equal : remainder.Equal remainder' := by
  have hfile : (Source.ofFile ⟨"lists/skip.txt"⟩).Equal (.ofFile ⟨"lists/.//skip.txt"⟩) :=
    ⟨rfl, rfl, by decide +kernel⟩
  exact Rule.equal_composition_iff.2
    ⟨rfl, paired_swap (.fields (.simple hfile)) (.fields (.fragmentation 0 2))⟩

theorem nested_equal : nested.Equal reordered :=
  Rule.equal_composition_iff.2 ⟨rfl, paired_swap remainder_equal (.refl _)⟩

end Sample

/-! ## Equality of rules -/

namespace Rule

/-- **Equality of rules.** Compositions are equal if they have the same operator and a bijection
between their rules pairs equal ones only; all other rules are equal if they are of one kind and
have equal fields. This is an equivalence relation. -/
theorem beq_iff_parts :
    (∀ (o p : Operator) (rs ss : List Rule),
      (Rule.composition o rs == .composition p ss) = true ↔
        o = p ∧ Paired (fun r s => (r == s) = true) rs ss) ∧
    (∀ a b : Rule, ¬ (a.kind = .composition ∧ b.kind = .composition) →
      ((a == b) = true ↔ a.FieldsEqual b)) ∧
    Equivalence fun a b : Rule => (a == b) = true := by
  simp only [beq_iff_equal]
  exact ⟨fun o p rs ss => equal_composition_iff, fun a b => equal_iff_fieldsEqual,
    Equal.equivalence⟩

/-- Two rules that differ by order on two levels are equal; the first and the second bucket are
not. -/
theorem beq_iff_parts_sample :
    (Sample.nested == Sample.reordered) = true ∧
      ¬ (Rule.fragmentation 0 2 == .fragmentation 1 2) = true := by
  constructor
  · refine (beq_iff_parts.1 _ _ _ _).2 ⟨rfl, Sample.paired_swap ?_ ?_⟩
    · exact beq_iff_equal.2 Sample.remainder_equal
    · exact beq_iff_parts.2.2.refl _
  · rw [beq_iff_parts.2.1 _ _ (by decide)]
    rintro ⟨⟩

end Rule

end TestSelection
