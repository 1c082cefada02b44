import TestSelection.Proofs.Filter.Meaning
import TestSelection.Proofs.Selection.Policy

/-!
# Shards of a selection

A selection can be split over several runs, the shards. Each run keeps the rules for what must not
run, and picks one bucket of what the rules for what may run match.

**Theorem (`shards_cover_once`).** If the rules of a specification compile, then so do those of each
shard. Each occurrence of a test that is selected without shards is selected by exactly one of them,
and all other occurrences by none. Tests with the same qualified name go to the same shard.

The reason is that a shard selects what is selected without shards and falls into its bucket
(`selectsAt_shard_iff`), and that each test falls into exactly one bucket (`existsUnique_bucket`).
-/

namespace TestSelection

variable {cx : Context} {spec : Specification} {t : TestCase} {index count : Int32}

/-! ## Buckets -/

/-- The hash of the name of a test leaves the number of a bucket. -/
def TestCase.FallsInto (t : TestCase) (index count : Int32) : Prop :=
  (t.nameHash.toNat : Int) % count.toInt = index.toInt

/-- Each test falls into exactly one bucket. -/
theorem TestCase.existsUnique_bucket (t : TestCase) (hcount : 1 ≤ count) :
    ∃! index : Int32, (0 ≤ index ∧ index < count) ∧ t.FallsInto index count := by
  have hpos : 1 ≤ count.toInt := by simpa using Int32.le_iff_toInt_le.1 hcount
  have hlt : count.toInt < 2 ^ 31 := count.toInt_lt
  have hrest : 0 ≤ (t.nameHash.toNat : Int) % count.toInt := Int.emod_nonneg _ (by omega)
  have hbound : (t.nameHash.toNat : Int) % count.toInt < count.toInt :=
    Int.emod_lt_of_pos _ (by omega)
  -- What is left is below the number of buckets, so it is a number of 32 bits itself.
  have htoInt : (Int32.ofInt ((t.nameHash.toNat : Int) % count.toInt)).toInt =
      (t.nameHash.toNat : Int) % count.toInt :=
    Int32.toInt_ofInt_of_le (by omega) (by omega)
  refine ⟨Int32.ofInt ((t.nameHash.toNat : Int) % count.toInt), ⟨⟨?_, ?_⟩, htoInt.symm⟩, ?_⟩
  · rw [Int32.le_iff_toInt_le, htoInt]
    exact hrest
  · rw [Int32.lt_iff_toInt_lt, htoInt]
    exact hbound
  · rintro index ⟨-, hindex⟩
    rw [← Int32.toInt_inj, htoInt]
    exact hindex.symm

/-- Into which bucket a test falls depends on its qualified name only. -/
theorem TestCase.fallsInto_congr {t u : TestCase} (h : t.qualifiedName = u.qualifiedName) :
    t.FallsInto index count ↔ u.FallsInto index count := by
  rw [FallsInto, FallsInto, nameHash, nameHash, h]

theorem Rule.admits_fragmentation (hi : 0 ≤ index) (hlt : index < count) :
    (Rule.fragmentation index count).Admits cx t ↔ t.FallsInto index count := by
  rw [admits_iff (compile_fragmentation.2 ⟨⟨hi, hlt⟩, rfl⟩), Filter.accepts]
  exact Fragment.accepts_ofRule_iff hi hlt

/-! ## Shards -/

namespace Specification

/-- The rule of a shard: one bucket of what the allowlist matches, or of everything if there are no
rules for what may run. -/
def shardRule (spec : Specification) (index count : Int32) : Rule :=
  if spec.allowlist = [] then .fragmentation index count
  else .composition .intersection
    [.composition .union spec.allowlist, .fragmentation index count]

/-- The specification of a shard. -/
def shard (spec : Specification) (index count : Int32) : Specification :=
  ⟨[spec.shardRule index count], spec.blocklist⟩

/-- A run with a specification selects the test at a position of a list. -/
def SelectsAt (cx : Context) (spec : Specification) (tests : List TestCase) (k : Nat) : Prop :=
  ∃ s, Selector.ofSpecification cx spec = .ok s ∧
    ∃ t, (s.select tests).verdicts[k]? = some (t, .selected)

/-- A run selects the tests that are allowed and not blocked. -/
theorem selectsAt_iff {tests : List TestCase} {k : Nat} {s : Selector}
    (h : Selector.ofSpecification cx spec = .ok s) :
    spec.SelectsAt cx tests k ↔
      ∃ t, tests[k]? = some t ∧ ¬ spec.NotAllowed cx t ∧ ¬ spec.Blocked cx t := by
  have hverdict (s' : Selector) : Selector.ofSpecification cx spec = .ok s' ↔ s = s' := by
    rw [h, Except.ok.injEq]
  simp only [SelectsAt, hverdict, exists_eq_left', Selector.select_eq_map, List.getElem?_map,
    Option.map_eq_some_iff, Prod.mk.injEq]
  constructor
  · rintro ⟨_, t, ht, rfl, hselected⟩
    exact ⟨t, ht, (Selector.verdict_eq_selected_iff h).1 hselected⟩
  · rintro ⟨t, ht, hselected⟩
    exact ⟨t, t, ht, rfl, (Selector.verdict_eq_selected_iff h).2 hselected⟩

/-- The rule of a shard compiles if the rules for what may run do. -/
theorem exists_compile_shardRule (hallow : ∀ r ∈ spec.allowlist, ∃ f, r.compile cx = .ok f)
    (hi : 0 ≤ index) (hlt : index < count) :
    ∃ f, (spec.shardRule index count).compile cx = .ok f := by
  have hfragment : ∃ f, (Rule.fragmentation index count).compile cx = .ok f :=
    ⟨_, Rule.compile_fragmentation.2 ⟨⟨hi, hlt⟩, rfl⟩⟩
  unfold shardRule
  split_ifs with hnil
  · exact hfragment
  · rw [Rule.exists_compile_composition]
    intro r hr
    rcases List.mem_pair.1 hr with rfl | rfl
    · exact Rule.exists_compile_composition.2 hallow
    · exact hfragment

/-- The rule of a shard accepts the tests that are allowed and fall into its bucket. -/
theorem admits_shardRule (hallow : ∀ r ∈ spec.allowlist, ∃ f, r.compile cx = .ok f)
    (hi : 0 ≤ index) (hlt : index < count) :
    (spec.shardRule index count).Admits cx t ↔
      ¬ spec.NotAllowed cx t ∧ t.FallsInto index count := by
  by_cases hnil : spec.allowlist = []
  · rw [shardRule, if_pos hnil, Rule.admits_fragmentation hi hlt]
    simp [NotAllowed, hnil]
  · have hcompile := exists_compile_shardRule hallow hi hlt
    rw [shardRule, if_neg hnil] at hcompile ⊢
    have hunion : (Rule.composition .union spec.allowlist).Admits cx t ↔
        ¬ spec.NotAllowed cx t := by
      rw [Rule.admits_composition, and_iff_right hallow]
      simp [Operator.Combines, NotAllowed, hnil]
    rw [Rule.admits_composition, and_iff_right (Rule.exists_compile_composition.1 hcompile)]
    simp [Operator.Combines, hunion, Rule.admits_fragmentation hi hlt]

/-- With one rule for what may run, a test is allowed if that rule accepts it. -/
theorem notAllowed_shard_iff :
    (spec.shard index count).NotAllowed cx t ↔ ¬ (spec.shardRule index count).Admits cx t := by
  simp [NotAllowed, shard]

section

variable (hrules : ∀ r ∈ spec.allowlist ++ spec.blocklist, ∃ f, r.compile cx = .ok f)
  (hi : 0 ≤ index) (hlt : index < count)

include hrules hi hlt

/-- The rules of a shard compile. -/
theorem exists_ofSpecification_shard :
    ∃ s, Selector.ofSpecification cx (spec.shard index count) = .ok s := by
  rw [List.forall_mem_append] at hrules
  rw [Selector.exists_ofSpecification_iff, shard, List.forall_mem_append, List.forall_mem_singleton]
  exact ⟨exists_compile_shardRule hrules.1 hi hlt, hrules.2⟩

/-- A shard selects what is selected without shards and falls into its bucket. -/
theorem selectsAt_shard_iff {tests : List TestCase} {k : Nat} :
    (spec.shard index count).SelectsAt cx tests k ↔
      spec.SelectsAt cx tests k ∧ ∃ t, tests[k]? = some t ∧ t.FallsInto index count := by
  obtain ⟨s, hs⟩ := Selector.exists_ofSpecification_iff.2 hrules
  obtain ⟨s', hs'⟩ := exists_ofSpecification_shard hrules hi hlt
  have hallow := (List.forall_mem_append.1 hrules).1
  have hblocked (t : TestCase) :
      (spec.shard index count).Blocked cx t ↔ spec.Blocked cx t := Iff.rfl
  rw [selectsAt_iff hs, selectsAt_iff hs']
  simp only [notAllowed_shard_iff, admits_shardRule hallow hi hlt, hblocked, not_not]
  constructor
  · rintro ⟨t, ht, ⟨hallowed, hbucket⟩, hfree⟩
    exact ⟨⟨t, ht, hallowed, hfree⟩, t, ht, hbucket⟩
  · rintro ⟨⟨t, ht, hallowed, hfree⟩, u, hu, hbucket⟩
    obtain rfl := Option.some_inj.1 (ht.symm.trans hu)
    exact ⟨t, ht, ⟨hallowed, hbucket⟩, hfree⟩

end

/-- **Shards cover a selection exactly once.** Each selected occurrence of a test is selected by
exactly one shard, and no shard selects another one. Selected tests with the same qualified name
are selected by the same shard. -/
theorem shards_cover_once
    (hrules : ∀ r ∈ spec.allowlist ++ spec.blocklist, ∃ f, r.compile cx = .ok f)
    (hcount : 1 ≤ count) :
    (∃ s, Selector.ofSpecification cx spec = .ok s) ∧
      (∀ index, 0 ≤ index → index < count →
        ∃ s, Selector.ofSpecification cx (spec.shard index count) = .ok s) ∧
      ∀ tests : List TestCase,
        (∀ k, spec.SelectsAt cx tests k →
          ∃! index, (0 ≤ index ∧ index < count) ∧
            (spec.shard index count).SelectsAt cx tests k) ∧
        (∀ k, ¬ spec.SelectsAt cx tests k →
          ∀ index, 0 ≤ index → index < count →
            ¬ (spec.shard index count).SelectsAt cx tests k) ∧
        ∀ j k t u, tests[j]? = some t → tests[k]? = some u →
          t.qualifiedName = u.qualifiedName →
          spec.SelectsAt cx tests j → spec.SelectsAt cx tests k →
          ∀ index, 0 ≤ index → index < count →
            ((spec.shard index count).SelectsAt cx tests j ↔
              (spec.shard index count).SelectsAt cx tests k) := by
  refine ⟨Selector.exists_ofSpecification_iff.2 hrules,
    fun index hi hlt => exists_ofSpecification_shard hrules hi hlt, fun tests => ⟨?_, ?_, ?_⟩⟩
  · -- The only shard that can select a test is that of its bucket.
    intro k hk
    obtain ⟨s, hs⟩ := Selector.exists_ofSpecification_iff.2 hrules
    obtain ⟨t, ht, -⟩ := (selectsAt_iff hs).1 hk
    obtain ⟨index, ⟨⟨hi, hlt⟩, hbucket⟩, hunique⟩ := t.existsUnique_bucket hcount
    refine ⟨index, ⟨⟨hi, hlt⟩, (selectsAt_shard_iff hrules hi hlt).2 ⟨hk, t, ht, hbucket⟩⟩, ?_⟩
    rintro other ⟨⟨hi', hlt'⟩, hother⟩
    obtain ⟨-, u, hu, hbucket'⟩ := (selectsAt_shard_iff hrules hi' hlt').1 hother
    obtain rfl := Option.some_inj.1 (ht.symm.trans hu)
    exact hunique other ⟨⟨hi', hlt'⟩, hbucket'⟩
  · intro k hk index hi hlt hshard
    exact hk ((selectsAt_shard_iff hrules hi hlt).1 hshard).1
  · intro j k t u ht hu hname hj hk index hi hlt
    rw [selectsAt_shard_iff hrules hi hlt, selectsAt_shard_iff hrules hi hlt,
      and_iff_right hj, and_iff_right hk]
    simp [ht, hu, TestCase.fallsInto_congr hname]

/-- The third of the sample tests is selected, and exactly one of three shards selects it. -/
theorem shards_cover_once_sample :
    (∀ r ∈ Sample.specification.allowlist ++ Sample.specification.blocklist,
        ∃ f, r.compile Sample.context = .ok f) ∧
      (1 : Int32) ≤ 3 ∧ Sample.specification.SelectsAt Sample.context Sample.tests 2 ∧
      ∃! index, (0 ≤ index ∧ index < 3) ∧
        (Sample.specification.shard index 3).SelectsAt Sample.context Sample.tests 2 := by
  have hrules := Selector.exists_ofSpecification_iff.1 ⟨_, Sample.ofSpecification_specification⟩
  have hselects : Sample.specification.SelectsAt Sample.context Sample.tests 2 :=
    ⟨_, Sample.ofSpecification_specification, .ofNames "com.other" "BarTest" "testB",
      by decide +kernel⟩
  exact ⟨hrules, by decide, hselects,
    ((shards_cover_once hrules (by decide)).2.2 Sample.tests).1 2 hselects⟩

end Specification

end TestSelection
