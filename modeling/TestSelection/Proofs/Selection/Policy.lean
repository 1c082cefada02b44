import TestSelection.Proofs.Compilation
import TestSelection.Proofs.Filter.Keep
import TestSelection.Selection.Selector

/-!
# The policy of the two lists

A selector compiles the rules of each list into one filter, gives lists of tests to both filters,
and looks up each test in what they keep. This file says what comes of it in terms of the rules.

**Theorem (`select_policy`).** A test is skipped as not allowlisted if there are rules for what may
run and none of them, compiled on its own, accepts it. Otherwise it is skipped as blocklisted if a
rule for what must not run accepts it. All other tests are selected, and they are what one single
rule keeps: `Specification.asRule`.

**Theorem (`select_each`).** The verdict on a test is the same in each list in which it stands, and
is the verdict on the test alone.

Between the selector and the rules there is `ofSpecification_eq_ok_iff`: a specification compiles if
all its rules do, each on its own, and the filter of a list is the union of their filters.
-/

namespace TestSelection

/-! ## The policy -/

variable {cx : Context} {spec : Specification} {t : TestCase}

/-- The rule, compiled on its own, accepts the test. -/
def Rule.Admits (cx : Context) (t : TestCase) (r : Rule) : Prop :=
  ∃ f, r.compile cx = .ok f ∧ f.accepts t = true

namespace Specification

/-- There are rules for what may run, and none of them accepts the test. -/
def NotAllowed (cx : Context) (spec : Specification) (t : TestCase) : Prop :=
  spec.allowlist ≠ [] ∧ ∀ r ∈ spec.allowlist, ¬ r.Admits cx t

/-- A rule for what must not run accepts the test. -/
def Blocked (cx : Context) (spec : Specification) (t : TestCase) : Prop :=
  ∃ r ∈ spec.blocklist, r.Admits cx t

/-- A specification as one rule: what some rule for what may run matches, if there are such rules,
and no rule for what must not run does. -/
def asRule (spec : Specification) : Rule :=
  if spec.allowlist = [] then .composition .subtract spec.blocklist
  else .composition .intersection
    [.composition .union spec.allowlist, .composition .subtract spec.blocklist]

end Specification

/-! ## Compiled lists -/

/-- A rule accepts a test on its own if its filter does. -/
theorem Rule.admits_iff {r : Rule} {f : Filter} (h : r.compile cx = .ok f) :
    r.Admits cx t ↔ f.accepts t = true := by
  constructor
  · rintro ⟨g, hg, ht⟩
    cases h.symm.trans hg
    exact ht
  · exact fun ht => ⟨f, h, ht⟩

/-- Compiled one by one, rules and filters accept the same tests. -/
theorem Rule.combines_admits_iff {rules : List Rule} {fs : List Filter}
    (h : CompileTo cx rules fs) (operator : Operator) :
    operator.Combines (Rule.Admits cx t) rules ↔
      (Filter.composition operator fs).accepts t = true := by
  rw [Filter.accepts_composition]
  exact operator.combines_iff_of_forall₂ (h.imp fun _ _ hf => Rule.admits_iff hf)

/-- A composition accepts a test on its own if its rules compile and its operator combines those
that accept the test. -/
theorem Rule.admits_composition {operator : Operator} {rules : List Rule} :
    (Rule.composition operator rules).Admits cx t ↔
      (∀ r ∈ rules, ∃ f, r.compile cx = .ok f) ∧
        operator.Combines (Rule.Admits cx t) rules := by
  rw [← exists_compileTo_iff]
  constructor
  · rintro ⟨f, hf, ht⟩
    obtain ⟨fs, hfs, rfl⟩ := compile_composition.1 hf
    exact ⟨⟨fs, hfs⟩, (combines_admits_iff hfs operator).2 ht⟩
  · rintro ⟨⟨fs, hfs⟩, ht⟩
    exact ⟨_, compile_composition.2 ⟨fs, hfs, rfl⟩, (combines_admits_iff hfs operator).1 ht⟩

theorem Verdict.isSelected_iff {v : Verdict} : v.isSelected = true ↔ v = .selected := by
  cases v <;> simp [isSelected]

namespace Selector

variable {s : Selector}

theorem compileFrom_eq_ok_iff {list : RuleList} {index : Nat} {rules : List Rule}
    {fs : List Filter} :
    compileFrom cx list index rules = .ok fs ↔ Rule.CompileTo cx rules fs := by
  induction rules generalizing index fs with
  | nil => simp [compileFrom, eq_comm]
  | cons r rules ih =>
    rw [compileFrom, Rule.CompileTo, List.forall₂_cons_left_iff]
    cases hr : r.compile cx with
    | error cause => simp
    | ok f =>
      simp only [bind_eq_ok_iff, pure_eq_ok_iff, ih, Except.ok.injEq, exists_and_left,
        exists_eq_left']

theorem compileList_eq_ok_iff {list : RuleList} {rules : List Rule} {f : Filter} :
    compileList cx list rules = .ok f ↔
      ∃ fs, Rule.CompileTo cx rules fs ∧ f = .composition .union fs := by
  simp only [compileList, bind_eq_ok_iff, pure_eq_ok_iff, compileFrom_eq_ok_iff]

/-- A specification compiles if all its rules do, each on its own. -/
theorem ofSpecification_eq_ok_iff :
    ofSpecification cx spec = .ok s ↔
      ∃ fs gs, Rule.CompileTo cx spec.allowlist fs ∧ Rule.CompileTo cx spec.blocklist gs ∧
        s = ofFilters spec (.composition .union fs) (.composition .union gs) := by
  simp only [ofSpecification, bind_eq_ok_iff, pure_eq_ok_iff, compileList_eq_ok_iff]
  constructor
  · rintro ⟨_, ⟨fs, hfs, rfl⟩, _, ⟨gs, hgs, rfl⟩, rfl⟩
    exact ⟨fs, gs, hfs, hgs, rfl⟩
  · rintro ⟨fs, gs, hfs, hgs, rfl⟩
    exact ⟨_, ⟨fs, hfs, rfl⟩, _, ⟨gs, hgs, rfl⟩, rfl⟩

/-- If a specification compiles, each of its rules does. -/
theorem exists_compile (h : ofSpecification cx spec = .ok s) {r : Rule}
    (hr : r ∈ spec.allowlist ++ spec.blocklist) : ∃ f, r.compile cx = .ok f := by
  obtain ⟨fs, gs, hfs, hgs, -⟩ := ofSpecification_eq_ok_iff.1 h
  rcases List.mem_append.1 hr with hr | hr
  · exact Rule.CompileTo.exists_of_mem hfs hr
  · exact Rule.CompileTo.exists_of_mem hgs hr

/-- A specification compiles if each of its rules does. -/
theorem exists_ofSpecification_iff :
    (∃ s, ofSpecification cx spec = .ok s) ↔
      ∀ r ∈ spec.allowlist ++ spec.blocklist, ∃ f, r.compile cx = .ok f := by
  constructor
  · rintro ⟨s, hs⟩ r hr
    exact exists_compile hs hr
  · intro h
    rw [List.forall_mem_append] at h
    obtain ⟨fs, hfs⟩ := Rule.exists_compileTo_iff.2 h.1
    obtain ⟨gs, hgs⟩ := Rule.exists_compileTo_iff.2 h.2
    exact ⟨_, ofSpecification_eq_ok_iff.2 ⟨fs, gs, hfs, hgs, rfl⟩⟩

/-! ## Verdicts on lists -/

/-- A list is judged test by test. -/
theorem select_eq_map (s : Selector) (tests : List TestCase) :
    s.select tests = ⟨tests.map fun t => (t, s.verdict t)⟩ := by
  refine congrArg Selection.mk (List.map_congr_left fun t ht => ?_)
  rw [Filter.contains_keep s.blocklist ht, verdict]
  cases s.allowlist with
  | none => simp only [Option.map_none, Option.any_none]; split_ifs <;> rfl
  | some f =>
    simp only [Option.map_some, Option.any_some, Filter.contains_keep f ht]
    split_ifs <;> rfl

/-- The verdict on a test in a list is that on the test alone. -/
theorem verdict_of_mem_select {tests : List TestCase} {v : Verdict}
    (h : (t, v) ∈ (s.select tests).verdicts) : v = s.verdict t := by
  rw [select_eq_map] at h
  obtain ⟨_, -, heq⟩ := List.mem_map.1 h
  cases heq
  rfl

/-- The selected tests of a list are those that are selected alone. -/
theorem selected_select (s : Selector) (tests : List TestCase) :
    (s.select tests).selected = tests.filter fun t => (s.verdict t).isSelected := by
  rw [select_eq_map, Selection.selected, List.filter_map, List.map_map]
  exact List.map_id _

/-! ## Verdicts and rules -/

/-- The filter for what may run refuses the tests that are not allowed. -/
theorem allowlist_refuses_iff (h : ofSpecification cx spec = .ok s) :
    (s.allowlist.any fun f => !f.accepts t) = true ↔ spec.NotAllowed cx t := by
  obtain ⟨fs, gs, hfs, -, rfl⟩ := ofSpecification_eq_ok_iff.1 h
  have hunion := Rule.combines_admits_iff (t := t) hfs .union
  unfold ofFilters Specification.NotAllowed
  by_cases hnil : spec.allowlist = []
  · simp [hnil]
  · simp only [List.isEmpty_iff, hnil, if_false, Option.any_some, Bool.not_eq_true',
      ne_eq, not_false_eq_true, true_and]
    rw [Bool.eq_false_iff, ne_eq, ← hunion]
    simp [Operator.Combines]

/-- The filter for what must not run accepts the tests that are blocked. -/
theorem blocklist_accepts_iff (h : ofSpecification cx spec = .ok s) :
    s.blocklist.accepts t = true ↔ spec.Blocked cx t := by
  obtain ⟨fs, gs, -, hgs, rfl⟩ := ofSpecification_eq_ok_iff.1 h
  exact (Rule.combines_admits_iff hgs .union).symm

theorem verdict_eq_notAllowlisted_iff (h : ofSpecification cx spec = .ok s) :
    s.verdict t = .skipped .notAllowlisted ↔ spec.NotAllowed cx t := by
  rw [← allowlist_refuses_iff h, verdict]
  split_ifs with hn hb <;> simp [hn]

theorem verdict_eq_blocklisted_iff (h : ofSpecification cx spec = .ok s) :
    s.verdict t = .skipped .blocklisted ↔ ¬ spec.NotAllowed cx t ∧ spec.Blocked cx t := by
  rw [← allowlist_refuses_iff h, ← blocklist_accepts_iff h, verdict]
  split_ifs with hn hb
  · simp [hn]
  · simp [hn, hb]
  · simp [hn, hb]

theorem verdict_eq_selected_iff (h : ofSpecification cx spec = .ok s) :
    s.verdict t = .selected ↔ ¬ spec.NotAllowed cx t ∧ ¬ spec.Blocked cx t := by
  rw [← allowlist_refuses_iff h, ← blocklist_accepts_iff h, verdict]
  split_ifs with hn hb
  · simp [hn]
  · simp [hn, hb]
  · simp [hn, hb]

end Selector

/-! ## One rule -/

/-- A specification that compiles does so as one rule, which admits the tests that are allowed and
not blocked. -/
theorem Specification.compile_asRule {s : Selector}
    (h : Selector.ofSpecification cx spec = .ok s) :
    ∃ f, spec.asRule.compile cx = .ok f ∧
      ∀ t, f.accepts t = true ↔ ¬ spec.NotAllowed cx t ∧ ¬ spec.Blocked cx t := by
  obtain ⟨fs, gs, hfs, hgs, -⟩ := Selector.ofSpecification_eq_ok_iff.1 h
  have hallow : (Rule.composition .union spec.allowlist).compile cx =
      .ok (.composition .union fs) := Rule.compile_composition.2 ⟨fs, hfs, rfl⟩
  have hblock : (Rule.composition .subtract spec.blocklist).compile cx =
      .ok (.composition .subtract gs) := Rule.compile_composition.2 ⟨gs, hgs, rfl⟩
  have hblocked (t) : (Filter.composition .subtract gs).accepts t = true ↔
      ¬ spec.Blocked cx t := by
    rw [← Rule.combines_admits_iff hgs]
    simp [Operator.Combines, Blocked]
  unfold asRule
  split_ifs with hnil
  · refine ⟨_, hblock, fun t => ?_⟩
    simp [hblocked, NotAllowed, hnil]
  · refine ⟨_, Rule.compile_composition.2 ⟨_, .cons hallow (.cons hblock .nil), rfl⟩, fun t => ?_⟩
    have hallowed : (Filter.composition .union fs).accepts t = true ↔
        ¬ spec.NotAllowed cx t := by
      rw [← Rule.combines_admits_iff hfs]
      simp [Operator.Combines, NotAllowed, hnil]
    rw [Filter.accepts_composition]
    simp [Operator.Combines, hallowed, hblocked]

/-! ## A sample -/

namespace Sample

/-- What `Sample.rule` matches, without one method. -/
def specification : Specification := ⟨[rule], [.simple .method (.ofValues ["testA"])]⟩

def selector : Selector :=
  ⟨some (.composition .union [filter]),
    .composition .union [.simple .method (.values ["testA"])]⟩

theorem ofSpecification_specification :
    Selector.ofSpecification context specification = .ok selector :=
  Selector.ofSpecification_eq_ok_iff.2
    ⟨_, _, .cons compile_rule .nil, .cons compile_method .nil, rfl⟩

/-- A test that both lists speak against, one that is blocked only, and one that is neither. -/
def tests : List TestCase :=
  [.ofNames "com.example" "FooTest" "testA", .ofNames "com.other" "FooTest" "testA",
    .ofNames "com.other" "BarTest" "testB"]

end Sample

/-! ## The policy and the verdicts -/

/-- **The policy.** Each test of a list is reported once, in order, with the verdict that the rules
give, each compiled on its own; and the selected tests are those that one single rule keeps. -/
theorem Selector.select_policy {s : Selector} (h : Selector.ofSpecification cx spec = .ok s)
    (tests : List TestCase) :
    (∀ r ∈ spec.allowlist ++ spec.blocklist, ∃ f, r.compile cx = .ok f) ∧
      (s.select tests).verdicts.map Prod.fst = tests ∧
      (∀ t v, (t, v) ∈ (s.select tests).verdicts →
        (v = .skipped .notAllowlisted ↔ spec.NotAllowed cx t) ∧
        (v = .skipped .blocklisted ↔ ¬ spec.NotAllowed cx t ∧ spec.Blocked cx t) ∧
        (v = .selected ↔ ¬ spec.NotAllowed cx t ∧ ¬ spec.Blocked cx t)) ∧
      ∃ f, spec.asRule.compile cx = .ok f ∧ (s.select tests).selected = f.keep tests := by
  refine ⟨fun r hr => exists_compile h hr, ?_, ?_, ?_⟩
  · rw [select_eq_map, List.map_map]
    exact List.map_id _
  · intro t v hv
    obtain rfl := verdict_of_mem_select hv
    exact ⟨verdict_eq_notAllowlisted_iff h, verdict_eq_blocklisted_iff h,
      verdict_eq_selected_iff h⟩
  · obtain ⟨f, hf, haccepts⟩ := Specification.compile_asRule h
    refine ⟨f, hf, ?_⟩
    rw [selected_select, Filter.keep_eq_filter]
    refine List.filter_congr fun t _ => ?_
    rw [Bool.eq_iff_iff, Verdict.isSelected_iff, verdict_eq_selected_iff h, haccepts]

/-- Of the three tests, the first is not allowed, the second is blocked, and the third is left. -/
theorem Selector.select_policy_sample :
    Selector.ofSpecification Sample.context Sample.specification = .ok Sample.selector ∧
      Sample.specification.NotAllowed Sample.context (.ofNames "com.example" "FooTest" "testA") ∧
      Sample.specification.Blocked Sample.context (.ofNames "com.other" "FooTest" "testA") ∧
      ∃ f, Sample.specification.asRule.compile Sample.context = .ok f ∧
        f.keep Sample.tests = [.ofNames "com.other" "BarTest" "testB"] := by
  obtain ⟨-, -, hverdict, f, hf, hkeep⟩ :=
    Selector.select_policy Sample.ofSpecification_specification Sample.tests
  have hfirst := hverdict (.ofNames "com.example" "FooTest" "testA") (.skipped .notAllowlisted)
    (by decide +kernel)
  have hsecond := hverdict (.ofNames "com.other" "FooTest" "testA") (.skipped .blocklisted)
    (by decide +kernel)
  refine ⟨Sample.ofSpecification_specification, hfirst.1.1 rfl, (hsecond.2.1.1 rfl).2, f, hf, ?_⟩
  rw [← hkeep]
  decide +kernel

/-- **A verdict is about one test.** On a list, a selector gives each test the verdict that it gives
to the test alone, so the verdict is the same in all lists. -/
theorem Selector.select_each (s : Selector) (tests : List TestCase) :
    (s.select tests).verdicts = tests.map (fun t => (t, s.verdict t)) ∧
      ∀ others t v w, (t, v) ∈ (s.select tests).verdicts → (t, w) ∈ (s.select others).verdicts →
        v = w := by
  refine ⟨by rw [select_eq_map], fun others t v w hv hw => ?_⟩
  rw [verdict_of_mem_select hv, verdict_of_mem_select hw]

/-- A test that is blocked between others is blocked by itself too, each time it occurs. -/
theorem Selector.select_each_sample :
    (TestCase.ofNames "com.other" "FooTest" "testA", Verdict.skipped .blocklisted) ∈
        (Sample.selector.select Sample.tests).verdicts ∧
      ∀ w, (.ofNames "com.other" "FooTest" "testA", w) ∈
        (Sample.selector.select
          (List.replicate 2 (.ofNames "com.other" "FooTest" "testA"))).verdicts →
        Verdict.skipped .blocklisted = w := by
  have hmem : (TestCase.ofNames "com.other" "FooTest" "testA", Verdict.skipped .blocklisted) ∈
      (Sample.selector.select Sample.tests).verdicts := by decide +kernel
  exact ⟨hmem, fun w hw => (Selector.select_each Sample.selector Sample.tests).2 _ _ _ _ hmem hw⟩

end TestSelection
