import TestSelection.Proofs.Config.Reload
import TestSelection.Proofs.Rule.Failure
import TestSelection.Proofs.Rule.Validity
import TestSelection.Proofs.Selection.Policy

/-!
# When a selector cannot be made

A specification becomes a selector if all its rules compile. The rules of each list are compiled
with their own numbers, the allowlist first, and a specification is checked by going through both
lists at once (`Specification.rules`). Both come to the same first rule.

**Theorem (`selector_outcome`).** The specification of a configuration that was loaded is in order.
So making its selector can only fail at a file: at the first rule that names a file that cannot be
read, the allowlist first. For any specification, if the check fails at a rule, then making the
selector fails there too, for the same reason, unless a file that cannot be read makes it fail at a
rule before that one.
-/

namespace TestSelection

variable {cx : Context} {spec : Specification}

namespace Selector

/-- Compile an entry of a specification, and keep only the error. -/
def compileEntry (cx : Context) (x : RuleList × Nat × Rule) : Except SelectorError Unit :=
  match x.2.2.compile cx with
  | .ok _ => .ok ()
  | .error cause => .error ⟨x.1, x.2.1, cause⟩

theorem compileEntry_eq_ok_iff {x : RuleList × Nat × Rule} :
    compileEntry cx x = .ok () ↔ ∃ f, x.2.2.compile cx = .ok f := by
  rw [compileEntry]
  cases x.2.2.compile cx with
  | ok f => simp
  | error cause => simp

theorem compileEntry_eq_error_iff {x : RuleList × Nat × Rule} {list : RuleList} {index : Nat}
    {cause : CompileError} :
    compileEntry cx x = .error ⟨list, index, cause⟩ ↔
      x.1 = list ∧ x.2.1 = index ∧ x.2.2.compile cx = .error cause := by
  rw [compileEntry]
  cases x.2.2.compile cx with
  | ok f => simp
  | error cause => simp

/-- To compile a list is to compile its entries one after the other. -/
theorem map_compileFrom (list : RuleList) (index : Nat) (rules : List Rule) :
    (compileFrom cx list index rules).map (fun _ => ()) =
      forM ((rules.zipIdx index).map fun (r, i) => (list, i, r)) (compileEntry cx) := by
  induction rules generalizing index with
  | nil => rfl
  | cons r rules ih =>
    rw [List.zipIdx_cons, List.map_cons, List.forM_cons, ← ih, compileFrom, compileEntry]
    cases r.compile cx with
    | error cause => rfl
    | ok f => cases compileFrom cx list (index + 1) rules <;> rfl

/-- To make a selector is to compile the rules of a specification one after the other. -/
theorem map_ofSpecification (cx : Context) (spec : Specification) :
    (ofSpecification cx spec).map (fun _ => ()) = forM spec.rules (compileEntry cx) := by
  rw [Specification.rules, List.forM_append, ← map_compileFrom, ← map_compileFrom, ofSpecification,
    compileList, compileList]
  cases compileFrom cx .allowlist 0 spec.allowlist with
  | error e => rfl
  | ok fs => cases compileFrom cx .blocklist 0 spec.blocklist <;> rfl

/-- Making a selector fails at the first rule that does not compile, and for its reason. -/
theorem ofSpecification_eq_error_iff {list : RuleList} {index : Nat} {cause : CompileError} :
    ofSpecification cx spec = .error ⟨list, index, cause⟩ ↔
      ∃ r, spec.FirstAt (fun r => ∃ f, r.compile cx = .ok f) list index r ∧
        r.compile cx = .error cause := by
  have hmap : ofSpecification cx spec = .error ⟨list, index, cause⟩ ↔
      (ofSpecification cx spec).map (fun _ => ()) = .error ⟨list, index, cause⟩ := by
    cases ofSpecification cx spec <;> simp [Except.map]
  rw [hmap, map_ofSpecification, forM_eq_error_iff]
  simp only [compileEntry_eq_ok_iff, compileEntry_eq_error_iff]
  constructor
  · rintro ⟨⟨_, _, r⟩, hfirst, rfl, rfl, hr⟩
    exact ⟨r, Specification.firstNot_rules_iff.1 hfirst, hr⟩
  · rintro ⟨r, hfirst, hr⟩
    exact ⟨(list, index, r), Specification.firstNot_rules_iff.2 hfirst, rfl, rfl, hr⟩

/-- If all rules are in order, making a selector fails at the first rule that names a file that
cannot be read. -/
theorem ofSpecification_eq_error_iff_unreadable (hvalid : spec.validate = .ok ())
    {list : RuleList} {index : Nat} {cause : CompileError} :
    ofSpecification cx spec = .error ⟨list, index, cause⟩ ↔
      ∃ r, spec.FirstAt (fun r => ∀ x ∈ r.namedFiles, cx.Readable x.2) list index r ∧
        ∃ kind p failure, cx.FirstUnreadable r.namedFiles kind p failure ∧
          cause = .unreadable kind (cx.resolve p) failure := by
  have hrules := Specification.validate_eq_ok_iff.1 hvalid
  have hcompiles (r : Rule) (hr : r ∈ spec.allowlist ++ spec.blocklist) :
      (∃ f, r.compile cx = .ok f) ↔ ∀ x ∈ r.namedFiles, cx.Readable x.2 :=
    Rule.exists_compile_iff (hrules r hr)
  rw [ofSpecification_eq_error_iff]
  refine exists_congr fun r => ?_
  rw [Specification.firstAt_congr hcompiles]
  refine and_congr_right fun hfirst => ?_
  exact Rule.compile_eq_error_iff (hrules r (Specification.mem_of_held hfirst.1))

/-- A specification that fails the check at a rule does not become a selector: it fails there for
the same reason, or at a file of a rule before. -/
theorem ofSpecification_of_invalid {list : RuleList} {index : Nat} {e : InvalidRule}
    (h : spec.validate = .error ⟨list, index, e⟩) :
    ofSpecification cx spec = .error ⟨list, index, .invalid e⟩ ∨
      ∃ list' index' kind path cause,
        Specification.Before (list', index') (list, index) ∧
          ofSpecification cx spec = .error ⟨list', index', .unreadable kind path cause⟩ := by
  obtain ⟨r, ⟨hr, -, hvalid⟩, he⟩ := Specification.validate_eq_error_iff.1 h
  have hfails : r.compile cx = .error (.invalid e) := Rule.compile_of_invalid he
  cases hspec : ofSpecification cx spec with
  | ok s =>
    obtain ⟨f, hf⟩ := exists_compile hspec (Specification.mem_of_held hr)
    rw [hfails] at hf
    cases hf
  | error failure =>
    obtain ⟨list', index', cause⟩ := failure
    obtain ⟨r', ⟨hr', -, hcompiles⟩, hcause⟩ := ofSpecification_eq_error_iff.1 hspec
    rcases Specification.before_trichotomy (list', index') (list, index) with hlt | heq | hgt
    · right
      obtain ⟨kind, p, failure, -, rfl⟩ :=
        (Rule.compile_eq_error_iff (hvalid list' index' r' hlt hr')).1 hcause
      exact ⟨list', index', kind, cx.resolve p, failure, hlt, rfl⟩
    · left
      cases heq
      cases hr.symm.trans hr'
      cases hfails.symm.trans hcause
      rfl
    · -- A rule that does not compile cannot stand before the first that does not.
      obtain ⟨f, hf⟩ := hcompiles list index r hgt hr
      rw [hfails] at hf
      cases hf

end Selector

/-! ## A sample -/

namespace Sample

/-- A missing file in the allowlist, and then a bucket that does not exist. -/
def unsound : Specification :=
  ⟨[.simple .method (.ofFile ⟨"gone.txt"⟩)], [.fragmentation 2 2]⟩

end Sample

/-! ## Making a selector -/

/-- **What can fail after loading.** The rules of a configuration that was loaded are in order, so
its selector is made, or fails at the first rule that names a file that cannot be read. In general,
where the check of a specification fails, making its selector fails too, unless it fails at a file
of a rule before that place. -/
theorem Config.selector_outcome :
    (∀ access file c, (Config.load access file).result = .ok c →
      c.spec.validate = .ok () ∧
      ∀ access',
        let cx := c.context access'
        ((∃ s, Selector.ofSpecification cx c.spec = .ok s) ∨
          ∃ list index r kind p cause,
            Selector.ofSpecification cx c.spec =
              .error ⟨list, index, .unreadable kind (cx.resolve p) cause⟩ ∧
            c.spec.FirstAt (fun r => ∀ x ∈ r.namedFiles, cx.Readable x.2) list index r ∧
            cx.FirstUnreadable r.namedFiles kind p cause) ∧
        ∀ list index e, Selector.ofSpecification cx c.spec ≠ .error ⟨list, index, .invalid e⟩) ∧
    ∀ cx spec list index e, Specification.validate spec = .error ⟨list, index, e⟩ →
      Selector.ofSpecification cx spec = .error ⟨list, index, .invalid e⟩ ∨
        ∃ list' index' kind path cause,
          Specification.Before (list', index') (list, index) ∧
            Selector.ofSpecification cx spec =
              .error ⟨list', index', .unreadable kind path cause⟩ := by
  refine ⟨fun access file c hload => ?_, fun cx spec list index e h => ?_⟩
  · have hvalid : c.spec.validate = .ok () := (Config.of_load_eq_ok hload).2
    refine ⟨hvalid, fun access' => ⟨?_, fun list index e h => ?_⟩⟩
    · cases hspec : Selector.ofSpecification (c.context access') c.spec with
      | ok s => exact .inl ⟨s, rfl⟩
      | error failure =>
        right
        obtain ⟨list, index, cause⟩ := failure
        obtain ⟨r, hfirst, kind, p, cause', hunreadable, rfl⟩ :=
          (Selector.ofSpecification_eq_error_iff_unreadable hvalid).1 hspec
        exact ⟨list, index, r, kind, p, cause', rfl, hfirst, hunreadable⟩
    · obtain ⟨_, -, _, _, _, -, hcause⟩ :=
        (Selector.ofSpecification_eq_error_iff_unreadable hvalid).1 h
      cases hcause
  · exact Selector.ofSpecification_of_invalid h

/-- A configuration whose file of values is missing was loaded, and fails there; and a missing file
counts for more than a bucket that does not exist in the other list. -/
theorem Config.selector_outcome_sample :
    (Config.load Config.Sample.files ⟨"conf/filters.toml"⟩).result = .ok Config.Sample.loaded ∧
      (∃ list index kind path cause,
        Selector.ofSpecification (Config.Sample.loaded.context Config.Sample.files)
          Config.Sample.loaded.spec = .error ⟨list, index, .unreadable kind path cause⟩) ∧
      Sample.unsound.validate = .error ⟨.blocklist, 0, .indexOutOfRange 2 2⟩ ∧
      ∃ list index kind path cause,
        Specification.Before (list, index) (.blocklist, 0) ∧
          Selector.ofSpecification Sample.directory Sample.unsound =
            .error ⟨list, index, .unreadable kind path cause⟩ := by
  have hinvalid : Sample.unsound.validate = .error ⟨.blocklist, 0, .indexOutOfRange 2 2⟩ := by
    decide +kernel
  refine ⟨Config.Sample.load_files, ?_, hinvalid, ?_⟩
  · obtain ⟨-, houtcome⟩ := Config.selector_outcome.1 _ _ _ Config.Sample.load_files
    obtain ⟨⟨s, hs⟩ | ⟨list, index, r, kind, p, cause, h, -⟩, -⟩ := houtcome Config.Sample.files
    · have hfails : (Selector.ofSpecification (Config.Sample.loaded.context Config.Sample.files)
          Config.Sample.loaded.spec).isOk = false := by decide +kernel
      rw [hs] at hfails
      cases hfails
    · exact ⟨list, index, kind, _, cause, h⟩
  · have hlist : (match Selector.ofSpecification Sample.directory Sample.unsound with
        | .ok _ => RuleList.blocklist
        | .error e => e.list) = .allowlist := by decide +kernel
    rcases Config.selector_outcome.2 Sample.directory _ _ _ _ hinvalid with h | h
    · rw [h] at hlist
      cases hlist
    · exact h

end TestSelection
