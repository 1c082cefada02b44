import TestSelection.Proofs.Compilation
import TestSelection.Proofs.Regex.Whole
import TestSelection.Proofs.Text.Lines

/-!
# Compiling keeps the meaning

**Theorem (`accepts_iff_holds`).** A filter that a rule was compiled to accepts a test exactly if
the rule holds of the test.

The proof is an induction on the rule. For rules without parts there is one fact each: a matcher
accepts the values that its source takes, an attribute is looked up where it is said to be, and the
number of a bucket survives the change from signed numbers to words. A composition asks its
operator for the same thing on both sides, of rules and of filters that agree one by one.

That a regular expression holds of a text does not mean more than what is written in it: the
expression matches the text from the start to the end (`Regex.holds_iff`).
-/

namespace TestSelection

variable {cx : Context} {t : TestCase}

/-! ## Sources -/

/-- The values of a file are what its lines hold. -/
theorem mem_valuesOfText {text s : String} : s ∈ valuesOfText text ↔ HoldsLine text s := by
  simp only [valuesOfText, HoldsLine, Text.trim_lines, List.mem_eraseDups, List.mem_map,
    List.mem_filter]
  constructor
  · rintro ⟨_, ⟨⟨line, hline, rfl⟩, hne⟩, rfl⟩
    refine ⟨?_, line, hline, rfl⟩
    simpa using hne
  · rintro ⟨hne, line, hline, rfl⟩
    refine ⟨_, ⟨⟨line, hline, rfl⟩, ?_⟩, rfl⟩
    simpa using hne

/-- A regular expression holds of the texts that the expression written in it matches from the start
to the end. Options that are lost when the expression is printed do not count. -/
theorem Regex.holds_iff (r : Regex) :
    ∃ x, parse r.source = .ok x ∧ ∀ s,
      (r.Holds s ↔ x.settled.MatchesWhole s.toList) ∧
        ((anchor x).PrintsFaithfully → (r.Holds s ↔ x.MatchesWhole s.toList)) := by
  obtain ⟨x, hparse, -⟩ := compile_eq_ok r.compiles
  refine ⟨x, hparse, fun s => ⟨isMatch_iff_settled hparse s, fun hfaithful => ?_⟩⟩
  exact isMatch_iff_of_printsFaithfully hparse hfaithful s

/-- A matcher accepts what its source takes. -/
theorem SoleSource.accepts_iff_takes {sole : SoleSource} {kind : RuleKind} {m : Matcher}
    (h : sole.compile cx kind = .ok m) (s : String) :
    m.accepts s = true ↔ sole.source.Takes cx s := by
  cases sole with
  | regex r =>
    cases h
    simp [Matcher.accepts, SoleSource.source, Source.ofRegex, Source.none, Source.Takes,
      Regex.Holds]
  | values vs =>
    cases h
    simp [Matcher.accepts, SoleSource.source, Source.ofValues, Source.none, Source.Takes]
  | file path =>
    simp only [SoleSource.compile] at h
    cases hr : cx.readText path with
    | error cause => simp [hr] at h
    | ok text =>
      rw [hr] at h
      cases h
      simp [Matcher.accepts, SoleSource.source, Source.ofFile, Source.none, Source.Takes, hr,
        mem_valuesOfText]

theorem Source.accepts_iff_takes {source : Source} {kind : RuleKind} {m : Matcher}
    (h : source.compile cx kind = .ok m) (s : String) :
    m.accepts s = true ↔ source.Takes cx s := by
  obtain ⟨sole, rfl, hm⟩ := Source.compile_eq_ok_iff.1 h
  exact SoleSource.accepts_iff_takes hm s

/-! ## Attributes -/

/-- Some value of an attribute passes a test if the attribute has the property tested for. -/
theorem Attribute.any_valuesIn_iff {attr : Attribute} {p : String → Bool} {P : String → Prop}
    (h : ∀ s, p s = true ↔ P s) : (attr.valuesIn t).any p = true ↔ attr.HoldsOf t P := by
  cases attr <;> simp [valuesIn, HoldsOf, h]

/-- A list of values accepts a test if one of them is a value of the attribute. -/
theorem Filter.accepts_values_iff {attr : Attribute} {vs : List String} :
    (Filter.simple attr (.values vs)).accepts t = true ↔ ∃ s ∈ attr.valuesIn t, s ∈ vs := by
  rw [accepts, List.any_eq_true]
  simp only [Matcher.accepts, List.contains_iff_mem]

theorem Filter.annotationFits_iff {name value : Regex} {a : Annotation} :
    annotationFits name value a = true ↔ name.Holds a.name ∧ ∃ v ∈ a.value, value.Holds v := by
  simp [annotationFits, Regex.Holds, Option.any_eq_true]

/-! ## Buckets -/

/-- A number that is not negative does not change when it becomes a word. -/
theorem toNat_natAbs_toUInt64 {n : Int32} (h : 0 ≤ n) :
    (n.toInt.natAbs.toUInt64.toNat : Int) = n.toInt := by
  have hn : 0 ≤ n.toInt := Int32.le_iff_toInt_le.1 h
  have hlt : n.toInt < 2 ^ 31 := n.toInt_lt
  rw [Nat.toUInt64, UInt64.toNat_ofNat', Nat.mod_eq_of_lt (by omega)]
  omega

/-- A test falls into a bucket if the hash of its name leaves the number of the bucket. -/
theorem Fragment.accepts_ofRule_iff {index count : Int32} (hi : 0 ≤ index) (hlt : index < count) :
    (Fragment.ofRule index count).accepts t = true ↔
      (t.nameHash.toNat : Int) % count.toInt = index.toInt := by
  have hc : 0 < count := Int32.lt_of_le_of_lt hi hlt
  have hcount : ((ofRule index count).count.toNat : Int) = count.toInt :=
    toNat_natAbs_toUInt64 (Int32.le_of_lt hc)
  have hindex : ((ofRule index count).index.toNat : Int) = index.toInt := toNat_natAbs_toUInt64 hi
  -- Buckets are counted from 1 on, so the division has a result.
  have hne : (ofRule index count).count ≠ 0 := by
    intro h0
    rw [h0] at hcount
    have : 0 < count.toInt := Int32.lt_iff_toInt_lt.1 hc
    simp at hcount
    omega
  rw [accepts, TestCase.bucket?, if_neg hne, decide_eq_true_eq, Option.some_inj,
    ← UInt64.toNat_inj, UInt64.toNat_mod, ← hcount, ← hindex]
  norm_cast

/-! ## Rules -/

/-- **Compiling keeps the meaning.** A filter accepts the tests of which its rule holds. -/
theorem Rule.accepts_iff_holds {r : Rule} {f : Filter} (h : r.compile cx = .ok f) (t : TestCase) :
    f.accepts t = true ↔ r.Holds cx t := by
  induction r generalizing f with
  | simple attr source =>
    obtain ⟨m, hm, rfl⟩ := compile_simple.1 h
    rw [Filter.accepts, Holds]
    exact Attribute.any_valuesIn_iff (Source.accepts_iff_takes hm)
  | annotationData name value =>
    obtain rfl := compile_annotationData.1 h
    simp only [Filter.accepts, Holds, List.any_eq_true, Filter.annotationFits_iff]
  | fragmentation index count =>
    obtain ⟨⟨hi, hlt⟩, rfl⟩ := compile_fragmentation.1 h
    rw [Filter.accepts, Holds]
    exact Fragment.accepts_ofRule_iff hi hlt
  | composition operator rules ih =>
    obtain ⟨fs, hfs, rfl⟩ := compile_composition.1 h
    rw [Filter.accepts_composition, holds_composition]
    refine (operator.combines_iff_of_forall₂ ?_).symm
    exact ((List.forall₂_and_left _ _).2 ⟨ih, hfs⟩).imp fun r f h => (h.1 h.2).symm

/-- A test of another package, in the second half. -/
theorem accepts_iff_holds_sample :
    Sample.rule.compile Sample.context = .ok Sample.filter ∧
      Sample.rule.Holds Sample.context (.ofNames "com.other" "FooTest" "testA") :=
  ⟨Sample.compile_rule, (Rule.accepts_iff_holds Sample.compile_rule _).1 (by decide +kernel)⟩

end TestSelection
