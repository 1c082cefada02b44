import TestSelection.Proofs.Filter.Meaning
import TestSelection.Proofs.Selection.Policy

/-!
# Buckets of compiled rules

To find the bucket of a test, the hash of its name is divided by the number of buckets. Nothing in
a filter says that there are any. This file shows that filters are always made with some, and that
no evaluation of them divides by zero.

**Theorem (`Rule.compile_buckets`).** The buckets of a filter are those of the rule that it was
compiled from, one for each and in the same order. Each has the numbers of its rule, and lies below
the number of buckets, which has at most 31 bits. So the filter has an answer for each test and
each list of tests, and a selector has a verdict.

**Evaluation with divisions.** `Filter.accepts` gives some answer in any case. `Filter.accepts?`
asks the same questions in the same order, and has no answer if a division by zero is met on the
way; so do `keep?` and `drop?`, and the verdicts of a selector. Where the buckets of a filter are
in order, these have the same answers as the functions without divisions
(`Filter.accepts?_eq_some`).
-/

namespace TestSelection

/-! ## Buckets of rules and filters -/

namespace Rule

mutual

/-- The numbers of the rules on buckets in a rule, from left to right. -/
def buckets : Rule → List (Int32 × Int32)
  | .simple _ _ => []
  | .annotationData _ _ => []
  | .fragmentation index count => [(index, count)]
  | .composition _ rules => bucketsOf rules

/-- The numbers of the rules on buckets in some rules. -/
def bucketsOf : List Rule → List (Int32 × Int32)
  | [] => []
  | r :: rs => buckets r ++ bucketsOf rs

end

end Rule

namespace Filter

mutual

/-- The buckets in a filter, from left to right. -/
def fragments : Filter → List Fragment
  | .simple _ _ => []
  | .annotationData _ _ => []
  | .fragment b => [b]
  | .composition _ filters => fragmentsOf filters

/-- The buckets in some filters. -/
def fragmentsOf : List Filter → List Fragment
  | [] => []
  | f :: fs => fragments f ++ fragmentsOf fs

end

theorem fragmentsOf_eq_flatMap (filters : List Filter) :
    fragmentsOf filters = filters.flatMap fragments := by
  induction filters with
  | nil => rfl
  | cons f fs ih => rw [fragmentsOf, ih, List.flatMap_cons]

end Filter

/-- A bucket has the numbers of a rule, and there is such a bucket. -/
structure Fragment.OfNumbers (numbers : Int32 × Int32) (b : Fragment) : Prop where
  index_eq : (b.index.toNat : Int) = numbers.1.toInt
  count_eq : (b.count.toNat : Int) = numbers.2.toInt
  index_lt : b.index < b.count
  count_le : (b.count.toNat : Int) ≤ Int32.maxValue.toInt

theorem Fragment.OfNumbers.count_ne_zero {numbers : Int32 × Int32} {b : Fragment}
    (h : b.OfNumbers numbers) : b.count ≠ 0 := by
  have hlt : b.index.toNat < b.count.toNat := UInt64.lt_iff_toNat_lt.1 h.index_lt
  rintro h0
  rw [h0, UInt64.toNat_zero] at hlt
  exact Nat.not_lt_zero _ hlt

/-- The numbers of a rule that was checked do not change when they become words. -/
theorem Fragment.ofNumbers_ofRule {index count : Int32} (hindex : 0 ≤ index)
    (hlt : index < count) : (Fragment.ofRule index count).OfNumbers (index, count) := by
  have hcount : 0 ≤ count := Int32.le_of_lt (Int32.lt_of_le_of_lt hindex hlt)
  have hindexEq : ((ofRule index count).index.toNat : Int) = index.toInt :=
    toNat_natAbs_toUInt64 hindex
  have hcountEq : ((ofRule index count).count.toNat : Int) = count.toInt :=
    toNat_natAbs_toUInt64 hcount
  refine ⟨hindexEq, hcountEq, ?_, hcountEq ▸ count.toInt_le⟩
  rw [UInt64.lt_iff_toNat_lt, ← Int.ofNat_lt, hindexEq, hcountEq]
  exact Int32.lt_iff_toInt_lt.1 hlt

namespace Rule

variable {cx : Context}

/-- A rule and its filter have the same buckets. -/
theorem forall₂_fragments {r : Rule} {f : Filter} (h : r.compile cx = .ok f) :
    List.Forall₂ (fun numbers b => b.OfNumbers numbers) r.buckets f.fragments := by
  induction r generalizing f with
  | simple attr source =>
    obtain ⟨m, -, rfl⟩ := compile_simple.1 h
    exact .nil
  | annotationData name value =>
    obtain rfl := compile_annotationData.1 h
    exact .nil
  | fragmentation index count =>
    obtain ⟨⟨hindex, hlt⟩, rfl⟩ := compile_fragmentation.1 h
    exact .cons (Fragment.ofNumbers_ofRule hindex hlt) .nil
  | composition operator rules ih =>
    obtain ⟨fs, hfs, rfl⟩ := compile_composition.1 h
    -- The buckets of the parts follow each other in the same order on both sides.
    show List.Forall₂ _ (bucketsOf rules) (Filter.fragmentsOf fs)
    clear h
    induction hfs with
    | nil => exact .nil
    | cons hf _ ihfs =>
      obtain ⟨ihr, ihrules⟩ := List.forall_mem_cons.1 ih
      exact List.rel_append (ihr hf) (ihfs ihrules)

theorem count_ne_zero_of_compile {r : Rule} {f : Filter} (h : r.compile cx = .ok f) :
    ∀ b ∈ f.fragments, b.count ≠ 0 := by
  intro b hb
  obtain ⟨numbers, -, hnumbers⟩ := (Paired.of_forall₂ (forall₂_fragments h)).exists_left hb
  exact hnumbers.count_ne_zero

end Rule

/-! ## Evaluation with divisions -/

/-- Whether a test falls into the bucket, if the division has a result. -/
def Fragment.accepts? (b : Fragment) (t : TestCase) : Option Bool :=
  (t.bucket? b.count).map fun bucket => decide (bucket = b.index)

namespace Filter

mutual

/-- Whether a filter accepts a test, if no division by zero is met. Parts of a composition are asked
up to the first that decides. -/
def accepts? : Filter → TestCase → Option Bool
  | .simple attr matcher, t => some ((attr.valuesIn t).any matcher.accepts)
  | .annotationData name value, t => some (t.annotations.any (annotationFits name value))
  | .fragment b, t => b.accepts? t
  | .composition .union filters, t => someAccepts? filters t
  | .composition .intersection filters, t => allAccept? filters t
  | .composition .subtract filters, t => (someAccepts? filters t).map (!·)

/-- Whether one of the filters accepts a test, if no division by zero is met. -/
def someAccepts? : List Filter → TestCase → Option Bool
  | [], _ => some false
  | f :: fs, t => do if ← accepts? f t then return true else someAccepts? fs t

/-- Whether all filters accept a test, if no division by zero is met. -/
def allAccept? : List Filter → TestCase → Option Bool
  | [], _ => some true
  | f :: fs, t => do if ← accepts? f t then allAccept? fs t else return false

end

/-- The tests that have a yes for an answer, if all of them have an answer. -/
def keepEach? (answer? : TestCase → Option Bool) : List TestCase → Option (List TestCase)
  | [] => some []
  | t :: ts => do
    let answer ← answer? t
    let kept ← keepEach? answer? ts
    return if answer then t :: kept else kept

mutual

/-- The tests that a filter keeps, in order, if no division by zero is met. -/
def keep? : Filter → List TestCase → Option (List TestCase)
  | .composition operator filters, tests => do
    let found ← combineAll? operator tests filters (start operator tests)
    return tests.filter fun t => found.contains t
  | .simple attr matcher, tests => keepEach? (accepts? (.simple attr matcher)) tests
  | .annotationData name value, tests => keepEach? (accepts? (.annotationData name value)) tests
  | .fragment b, tests => keepEach? (accepts? (.fragment b)) tests

/-- Combine what filters keep of a list, if no division by zero is met. -/
def combineAll? (operator : Operator) (tests : List TestCase) :
    List Filter → List TestCase → Option (List TestCase)
  | [], found => some found
  | f :: fs, found => do combineAll? operator tests fs (combine operator found (← keep? f tests))

end

/-- The tests that a filter does not keep, in order, if no division by zero is met. -/
def drop? (f : Filter) (tests : List TestCase) : Option (List TestCase) := do
  let kept ← f.keep? tests
  return tests.filter fun t => !kept.contains t

end Filter

namespace Selector

/-- Whether the filter for what may run refuses a test, if no division by zero is met. -/
def refuses? (s : Selector) (t : TestCase) : Option Bool :=
  match s.allowlist with
  | none => some false
  | some f => (f.accepts? t).map (!·)

/-- The verdict on one test, if no division by zero is met. -/
def verdict? (s : Selector) (t : TestCase) : Option Verdict := do
  if ← s.refuses? t then return .skipped .notAllowlisted
  else if ← s.blocklist.accepts? t then return .skipped .blocklisted
  else return .selected

/-- What the filter for what may run keeps, if there is one, and no division by zero is met. -/
def allowed? (s : Selector) (tests : List TestCase) : Option (Option (List TestCase)) :=
  match s.allowlist with
  | none => some none
  | some f => (f.keep? tests).map some

/-- The verdicts on a list of tests, if no division by zero is met. -/
def select? (s : Selector) (tests : List TestCase) : Option Selection := do
  let allowed ← s.allowed? tests
  let blocked ← s.blocklist.keep? tests
  return ⟨tests.map fun t =>
    if allowed.any fun kept => !kept.contains t then (t, .skipped .notAllowlisted)
    else if blocked.contains t then (t, .skipped .blocklisted)
    else (t, .selected)⟩

end Selector

/-! ## No division by zero -/

theorem Fragment.accepts?_eq_some {b : Fragment} (h : b.count ≠ 0) (t : TestCase) :
    b.accepts? t = some (b.accepts t) := by
  simp [accepts?, accepts, TestCase.bucket?, h]

namespace Filter

variable {filters : List Filter} {t : TestCase} {tests : List TestCase}

theorem someAccepts?_eq_some (h : ∀ f ∈ filters, f.accepts? t = some (f.accepts t)) :
    someAccepts? filters t = some (someAccepts filters t) := by
  induction filters with
  | nil => rfl
  | cons f fs ih =>
    obtain ⟨hf, hfs⟩ := List.forall_mem_cons.1 h
    rw [someAccepts?, someAccepts, hf]
    cases f.accepts t with
    | true => rfl
    | false => exact ih hfs

theorem allAccept?_eq_some (h : ∀ f ∈ filters, f.accepts? t = some (f.accepts t)) :
    allAccept? filters t = some (allAccept filters t) := by
  induction filters with
  | nil => rfl
  | cons f fs ih =>
    obtain ⟨hf, hfs⟩ := List.forall_mem_cons.1 h
    rw [allAccept?, allAccept, hf]
    cases f.accepts t with
    | true => exact ih hfs
    | false => rfl

/-- The buckets of a composition are those of its filters. -/
theorem forall_fragments_composition {operator : Operator} {P : Fragment → Prop} :
    (∀ b ∈ (composition operator filters).fragments, P b) ↔
      ∀ f ∈ filters, ∀ b ∈ f.fragments, P b := by
  rw [fragments, fragmentsOf_eq_flatMap]
  exact List.forall_mem_flatMap

/-- A filter has an answer for a test, and the one that it has in any case. -/
theorem accepts?_eq_some {f : Filter} (h : ∀ b ∈ f.fragments, b.count ≠ 0) (t : TestCase) :
    f.accepts? t = some (f.accepts t) := by
  induction f with
  | simple attr matcher => rfl
  | annotationData name value => rfl
  | fragment b => exact Fragment.accepts?_eq_some (h b (List.mem_singleton.2 rfl)) t
  | composition operator filters ih =>
    rw [forall_fragments_composition] at h
    have hparts : ∀ f ∈ filters, f.accepts? t = some (f.accepts t) := fun f hf => ih f hf (h f hf)
    cases operator with
    | union => exact someAccepts?_eq_some hparts
    | intersection => exact allAccept?_eq_some hparts
    | subtract => rw [accepts?, accepts, someAccepts?_eq_some hparts, Option.map_some]

/-- A bucket out of none has no answer for any test. -/
example (t : TestCase) : (Filter.fragment ⟨0, 0⟩).accepts? t = none := rfl

theorem keepEach?_eq_some {answer? : TestCase → Option Bool} {answer : TestCase → Bool}
    (h : ∀ t, answer? t = some (answer t)) (tests : List TestCase) :
    keepEach? answer? tests = some (tests.filter answer) := by
  induction tests with
  | nil => rfl
  | cons t ts ih =>
    rw [keepEach?, h, ih, List.filter_cons]
    rfl

theorem combineAll?_eq_some {operator : Operator}
    (h : ∀ f ∈ filters, f.keep? tests = some (f.keep tests)) (found : List TestCase) :
    combineAll? operator tests filters found = some (combineAll operator tests filters found) := by
  induction filters generalizing found with
  | nil => rfl
  | cons f fs ih =>
    obtain ⟨hf, hfs⟩ := List.forall_mem_cons.1 h
    rw [combineAll?, combineAll, hf]
    exact ih hfs _

/-- A filter has an answer for a list of tests, and the one that it has in any case. -/
theorem keep?_eq_some {f : Filter} (h : ∀ b ∈ f.fragments, b.count ≠ 0) (tests : List TestCase) :
    f.keep? tests = some (f.keep tests) := by
  induction f with
  | simple attr matcher => exact keepEach?_eq_some (accepts?_eq_some h) tests
  | annotationData name value => exact keepEach?_eq_some (accepts?_eq_some h) tests
  | fragment b => exact keepEach?_eq_some (accepts?_eq_some h) tests
  | composition operator filters ih =>
    rw [forall_fragments_composition] at h
    have hparts : ∀ f ∈ filters, f.keep? tests = some (f.keep tests) := fun f hf => ih f hf (h f hf)
    rw [keep?, keep, combineAll?_eq_some hparts]
    rfl

theorem drop?_eq_some {f : Filter} (h : ∀ b ∈ f.fragments, b.count ≠ 0) (tests : List TestCase) :
    f.drop? tests = some (f.drop tests) := by
  rw [drop?, drop, keep?_eq_some h]
  rfl

end Filter

namespace Selector

variable {s : Selector}

/-- The buckets in both filters of a selector. -/
def fragments (s : Selector) : List Fragment :=
  (s.allowlist.map Filter.fragments).getD [] ++ s.blocklist.fragments

theorem refuses?_eq_some (h : ∀ b ∈ s.fragments, b.count ≠ 0) (t : TestCase) :
    s.refuses? t = some (s.allowlist.any fun f => !f.accepts t) := by
  obtain ⟨_ | f, blocklist⟩ := s
  · rfl
  · obtain ⟨hallow, -⟩ := List.forall_mem_append.1 h
    show (f.accepts? t).map (!·) = some (!f.accepts t)
    rw [Filter.accepts?_eq_some hallow, Option.map_some]

theorem allowed?_eq_some (h : ∀ b ∈ s.fragments, b.count ≠ 0) (tests : List TestCase) :
    s.allowed? tests = some (s.allowlist.map fun f => f.keep tests) := by
  obtain ⟨_ | f, blocklist⟩ := s
  · rfl
  · obtain ⟨hallow, -⟩ := List.forall_mem_append.1 h
    show (f.keep? tests).map some = some (some (f.keep tests))
    rw [Filter.keep?_eq_some hallow, Option.map_some]

/-- A selector has a verdict on a test, and the one that it has in any case. -/
theorem verdict?_eq_some (h : ∀ b ∈ s.fragments, b.count ≠ 0) (t : TestCase) :
    s.verdict? t = some (s.verdict t) := by
  obtain ⟨-, hblock⟩ := List.forall_mem_append.1 h
  rw [verdict?, verdict, refuses?_eq_some h, Filter.accepts?_eq_some hblock]
  cases s.allowlist.any fun f => !f.accepts t with
  | true => rfl
  | false => cases s.blocklist.accepts t <;> rfl

/-- A selector has verdicts on a list of tests, and those that it has in any case. -/
theorem select?_eq_some (h : ∀ b ∈ s.fragments, b.count ≠ 0) (tests : List TestCase) :
    s.select? tests = some (s.select tests) := by
  obtain ⟨-, hblock⟩ := List.forall_mem_append.1 h
  rw [select?, select, allowed?_eq_some h, Filter.keep?_eq_some hblock]
  rfl

/-- The buckets of a selector are those of its rules. -/
theorem count_ne_zero_of_ofSpecification {cx : Context} {spec : Specification}
    (h : ofSpecification cx spec = .ok s) : ∀ b ∈ s.fragments, b.count ≠ 0 := by
  obtain ⟨fs, gs, hfs, hgs, rfl⟩ := ofSpecification_eq_ok_iff.1 h
  have hlist {rules : List Rule} {filters : List Filter} (h : Rule.CompileTo cx rules filters) :
      ∀ b ∈ (Filter.composition .union filters).fragments, b.count ≠ 0 := by
    rw [Filter.forall_fragments_composition]
    intro f hf
    obtain ⟨r, -, hr⟩ := (Paired.of_forall₂ h).exists_left hf
    exact Rule.count_ne_zero_of_compile hr
  unfold fragments ofFilters
  refine List.forall_mem_append.2 ⟨?_, hlist hgs⟩
  split_ifs
  · exact List.forall_mem_nil _
  · exact hlist hfs

end Selector

/-! ## Compiled rules -/

/-- **Buckets are in range, and no evaluation divides by zero.** Each bucket of a filter has the
numbers of its rule and is one of the buckets that there are. So filters have an answer for each
test and each list of tests, and selectors have a verdict. -/
theorem Rule.compile_buckets (cx : Context) :
    (∀ (r : Rule) (f : Filter), r.compile cx = .ok f →
      List.Forall₂ (fun numbers b => b.OfNumbers numbers) r.buckets f.fragments ∧
      (∀ t, f.accepts? t = some (f.accepts t)) ∧
      ∀ tests, f.keep? tests = some (f.keep tests) ∧ f.drop? tests = some (f.drop tests)) ∧
    ∀ (spec : Specification) (s : Selector), Selector.ofSpecification cx spec = .ok s →
      (∀ t, s.verdict? t = some (s.verdict t)) ∧
      ∀ tests, s.select? tests = some (s.select tests) := by
  refine ⟨fun r f h => ?_, fun spec s h => ?_⟩
  · have hcount := count_ne_zero_of_compile h
    exact ⟨forall₂_fragments h, Filter.accepts?_eq_some hcount,
      fun tests => ⟨Filter.keep?_eq_some hcount tests, Filter.drop?_eq_some hcount tests⟩⟩
  · have hcount := Selector.count_ne_zero_of_ofSpecification h
    exact ⟨Selector.verdict?_eq_some hcount, Selector.select?_eq_some hcount⟩

/-- The numbers of the second part get into the filter. The filter has an answer for each test, and
so has a selector with the rule. -/
theorem compile_buckets_sample :
    Sample.rule.compile Sample.context = .ok Sample.filter ∧
      List.Forall₂ (fun numbers b => b.OfNumbers numbers) [(0, 2)] [(⟨0, 2⟩ : Fragment)] ∧
      (∀ t, Sample.filter.accepts? t = some (Sample.filter.accepts t)) ∧
      Selector.ofSpecification Sample.context Sample.specification = .ok Sample.selector ∧
      ∀ t, Sample.selector.verdict? t = some (Sample.selector.verdict t) := by
  obtain ⟨hrule, hselector⟩ := Rule.compile_buckets Sample.context
  obtain ⟨hbuckets, haccepts, -⟩ := hrule _ _ Sample.compile_rule
  obtain ⟨hverdict, -⟩ := hselector _ _ Sample.ofSpecification_specification
  exact ⟨Sample.compile_rule, hbuckets, haccepts, Sample.ofSpecification_specification, hverdict⟩

end TestSelection
