import Mathlib.Data.List.Sort
import TestSelection.Proofs.Compilation
import TestSelection.Proofs.Specification

/-!
# Which rules are in order

A rule can break a condition by itself, whatever rules stand in it or around it: a simple rule has
no source or several, or the number of a bucket is not below the number of buckets. Here is said
which conditions there are and how each is reported, without a word about checking.

**Theorem (`validate_outcome`).** A rule passes the check if each rule in its tree keeps its own
conditions. If not, the check reports what the first rule that breaks one has done, where a rule
comes before the rules in it and these come from left to right. A specification passes if all rules
of both lists do, and otherwise the first rule that does not is named with its list and its number
in that list, the allowlist first.

Checking recurses into compositions and stops at the first fault (`Rule.validate`). It is the same
as listing the rules of the tree and checking one after the other by itself
(`validate_eq_forM_nodes`), and after that only lists are left.
-/

namespace TestSelection

/-! ## Conditions on one rule -/

/-- A source of this kind is there. A list of values is there even if it is empty. -/
def Source.Has (s : Source) : SourceKind → Prop
  | .regex => ∃ r, s.regex = some r
  | .values => ∃ vs, s.values = some vs
  | .file => ∃ p, s.file = some p

namespace Rule

mutual

/-- The rules of a tree, each before the rules in it, and these from left to right. -/
def nodes : Rule → List Rule
  | .simple attr source => [.simple attr source]
  | .annotationData name value => [.annotationData name value]
  | .fragmentation index count => [.fragmentation index count]
  | .composition operator rules => .composition operator rules :: nodesOf rules

/-- The rules of several trees. -/
def nodesOf : List Rule → List Rule
  | [] => []
  | r :: rs => nodes r ++ nodesOf rs

end

/-- The rule keeps its own conditions: exactly one source, or a bucket that exists. -/
def Fits : Rule → Prop
  | .simple _ source => ∃! kind, source.Has kind
  | .annotationData _ _ => True
  | .fragmentation index count => 0 ≤ index.toInt ∧ index.toInt < count.toInt
  | .composition _ _ => True

/-- The rule breaks one of its own conditions, and how this is reported. -/
inductive Breaks : Rule → InvalidRule → Prop
  | noSource {attr : Attribute} {source : Source} (h : ∀ kind, ¬ source.Has kind) :
      Breaks (.simple attr source) (.noSource (.simple attr))
  /-- Of several sources, those that are there are listed, in a fixed order. -/
  | severalSources {attr : Attribute} {source : Source} {found : List SourceKind}
      (hseveral : 2 ≤ found.length) (horder : found.Sublist [.regex, .values, .file])
      (hfound : ∀ kind, kind ∈ found ↔ source.Has kind) :
      Breaks (.simple attr source) (.severalSources (.simple attr) found)
  | negativeIndex {index count : Int32} (h : index.toInt < 0) :
      Breaks (.fragmentation index count) (.negativeIndex index)
  | negativeCount {index count : Int32} (hindex : 0 ≤ index.toInt) (h : count.toInt < 0) :
      Breaks (.fragmentation index count) (.negativeCount count)
  | indexOutOfRange {index count : Int32} (hindex : 0 ≤ index.toInt) (hcount : 0 ≤ count.toInt)
      (h : count.toInt ≤ index.toInt) :
      Breaks (.fragmentation index count) (.indexOutOfRange index count)

end Rule

/-! ## Checking one rule -/

namespace Source

variable {s : Source} {kind : RuleKind}

theorem mem_present_iff {k : SourceKind} : k ∈ s.present ↔ s.Has k := by
  obtain ⟨regex, values, file⟩ := s
  cases k <;> cases regex <;> cases values <;> cases file <;> simp [present, Has]

theorem present_sublist : s.present.Sublist [.regex, .values, .file] := by
  obtain ⟨regex, values, file⟩ := s
  cases regex <;> cases values <;> cases file <;> simp [present]

/-- Which sources are there determines the list of them, because their order is fixed. -/
theorem eq_present {found : List SourceKind} (horder : found.Sublist [.regex, .values, .file])
    (hfound : ∀ k, k ∈ found ↔ s.Has k) : found = s.present := by
  let Before (a b : SourceKind) : Prop := a.ctorIdx < b.ctorIdx
  have : Std.Irrefl Before := ⟨fun a => Nat.lt_irrefl _⟩
  have : Std.Antisymm Before := ⟨fun a b hab hba => absurd hba (Nat.lt_asymm hab)⟩
  have hall : List.Pairwise Before [.regex, .values, .file] := by decide
  refine List.Pairwise.eq_of_mem_iff (hall.sublist horder) (hall.sublist present_sublist) ?_
  exact fun k => (hfound k).trans mem_present_iff.symm

/-- The check of a source counts the sources that are there. -/
theorem validate_eq_match_present : s.validate kind =
    match s.present with
    | [] => .error (.noSource kind)
    | [_] => .ok ()
    | found => .error (.severalSources kind found) := by
  obtain ⟨regex, values, file⟩ := s
  cases regex <;> cases values <;> cases file <;> rfl

theorem existsUnique_has_iff : (∃! k, s.Has k) ↔ ∃ k, s.present = [k] := by
  have hnodup : s.present.Nodup := present_sublist.nodup (by decide)
  simp only [← mem_present_iff]
  constructor
  · rintro ⟨k, hk, honly⟩
    refine ⟨k, List.perm_singleton.1 ((List.perm_ext_iff_of_nodup hnodup (by simp)).2 fun k' => ?_)⟩
    rw [List.mem_singleton]
    exact ⟨honly k', fun h => h ▸ hk⟩
  · rintro ⟨k, hk⟩
    exact ⟨k, by simp [hk], by simp [hk]⟩

end Source

namespace Rule

variable {r : Rule} {e : InvalidRule}

/-- Check a rule, and leave out the rules in it. -/
def validateAlone : Rule → Except InvalidRule Unit
  | .simple attr source => source.validate (.simple attr)
  | .annotationData _ _ => .ok ()
  | .fragmentation index count => validateFragment index count
  | .composition _ _ => .ok ()

theorem validateAlone_eq_ok_iff : r.validateAlone = .ok () ↔ r.Fits := by
  cases r with
  | simple attr source =>
    rw [validateAlone, Fits, Source.existsUnique_has_iff, Source.validate_eq_match_present]
    match source.present with
    | [] => simp
    | [k] => simp
    | k :: k' :: rest => simp
  | annotationData name value => exact iff_of_true rfl trivial
  | fragmentation index count =>
    rw [validateAlone, validateFragment_eq_ok_iff, Int32.le_iff_toInt_le, Int32.lt_iff_toInt_lt]
    rfl
  | composition operator rules => exact iff_of_true rfl trivial

/-- The faults of sources. -/
theorem validate_source_eq_error_iff {attr : Attribute} {source : Source} :
    source.validate (.simple attr) = .error e ↔ (Rule.simple attr source).Breaks e := by
  rw [Source.validate_eq_match_present]
  constructor
  · intro h
    match hpresent : source.present with
    | [] =>
      rw [hpresent] at h
      cases h
      exact .noSource fun k hk => by simpa [hpresent] using Source.mem_present_iff.2 hk
    | [k] =>
      rw [hpresent] at h
      cases h
    | k :: k' :: rest =>
      rw [hpresent] at h
      cases h
      refine .severalSources (by simp) ?_ fun k => ?_
      · exact hpresent ▸ Source.present_sublist
      · rw [← hpresent]
        exact Source.mem_present_iff
  · intro h
    cases h with
    | noSource h =>
      have hpresent : source.present = [] :=
        List.eq_nil_iff_forall_not_mem.2 fun k hk => h k (Source.mem_present_iff.1 hk)
      rw [hpresent]
    | severalSources hseveral horder hfound =>
      obtain rfl := Source.eq_present horder hfound
      match hpresent : source.present with
      | [] => simp [hpresent] at hseveral
      | [k] => simp [hpresent] at hseveral
      | k :: k' :: rest => rfl

/-- The faults of buckets. A negative number of the bucket counts for more than a negative number
of buckets, and this for more than a bucket that is out of range. -/
theorem validateFragment_eq_error_iff {index count : Int32} :
    validateFragment index count = .error e ↔ (Rule.fragmentation index count).Breaks e := by
  unfold validateFragment
  simp only [Int32.lt_iff_toInt_lt, Int32.le_iff_toInt_le, Int32.toInt_zero]
  constructor
  · intro h
    split_ifs at h with hindex hcount hrange
    · cases h
      exact .negativeIndex hindex
    · cases h
      exact .negativeCount (by omega) hcount
    · cases h
      exact .indexOutOfRange (by omega) (by omega) hrange
  · intro h
    cases h with
    | negativeIndex h => rw [if_pos h]
    | negativeCount hindex h => rw [if_neg (by omega), if_pos h]
    | indexOutOfRange hindex hcount h =>
      rw [if_neg (by omega), if_neg (by omega), if_pos h]

theorem validateAlone_eq_error_iff : r.validateAlone = .error e ↔ r.Breaks e := by
  cases r with
  | simple attr source => exact validate_source_eq_error_iff
  | annotationData name value =>
    rw [validateAlone]
    exact iff_of_false nofun nofun
  | fragmentation index count => exact validateFragment_eq_error_iff
  | composition operator rules =>
    rw [validateAlone]
    exact iff_of_false nofun nofun

/-! ## Checking a tree -/

/-- To check a rule is to check the rules of its tree one after the other. -/
theorem validate_eq_forM_nodes (r : Rule) : r.validate = forM r.nodes validateAlone := by
  induction r with
  | simple attr source =>
    rw [validate, nodes, List.forM_cons, validateAlone]
    cases source.validate (.simple attr) <;> rfl
  | annotationData name value => rfl
  | fragmentation index count =>
    rw [validate, nodes, List.forM_cons, validateAlone]
    cases validateFragment index count <;> rfl
  | composition operator rules ih =>
    rw [validate, nodes, List.forM_cons]
    show validateAll rules = forM (nodesOf rules) validateAlone
    induction rules with
    | nil => rfl
    | cons r rules ihrules =>
      obtain ⟨hr, hrules⟩ := List.forall_mem_cons.1 ih
      rw [validateAll, nodesOf, List.forM_append, hr, ihrules hrules]

theorem validate_eq_ok_iff : r.validate = .ok () ↔ ∀ x ∈ r.nodes, x.Fits := by
  rw [validate_eq_forM_nodes, forM_eq_ok_iff]
  simp only [validateAlone_eq_ok_iff]

theorem validate_eq_error_iff :
    r.validate = .error e ↔ ∃ x, FirstNot Fits r.nodes x ∧ x.Breaks e := by
  rw [validate_eq_forM_nodes, forM_eq_error_iff]
  simp only [validateAlone_eq_ok_iff, validateAlone_eq_error_iff]

end Rule

/-! ## Checking a specification -/

namespace Specification

variable {s : Specification}

/-- Check an entry of a specification. -/
def validateEntry (x : RuleList × Nat × Rule) : Except InvalidEntry Unit :=
  x.2.2.validate.mapError fun cause => ⟨x.1, x.2.1, cause⟩

theorem validateEntries_eq_forM (entries : List (RuleList × Nat × Rule)) :
    validateEntries entries = forM entries validateEntry := by
  induction entries with
  | nil => rfl
  | cons x entries ih =>
    obtain ⟨list, index, r⟩ := x
    rw [validateEntries, List.forM_cons, validateEntry]
    cases r.validate with
    | ok u => exact ih
    | error cause => rfl

theorem validate_eq_forM_rules (s : Specification) : s.validate = forM s.rules validateEntry :=
  validateEntries_eq_forM s.rules

theorem validateEntry_eq_ok_iff {x : RuleList × Nat × Rule} :
    validateEntry x = .ok () ↔ x.2.2.validate = .ok () :=
  mapError_eq_ok_iff

theorem validate_eq_ok_iff :
    s.validate = .ok () ↔ ∀ r ∈ s.allowlist ++ s.blocklist, r.validate = .ok () := by
  rw [validate_eq_forM_rules, forM_eq_ok_iff, ← forall_rules_iff]
  simp only [validateEntry_eq_ok_iff]

theorem validate_eq_error_iff {list : RuleList} {index : Nat} {cause : InvalidRule} :
    s.validate = .error ⟨list, index, cause⟩ ↔
      ∃ r, s.FirstAt (fun r => r.validate = .ok ()) list index r ∧ r.validate = .error cause := by
  rw [validate_eq_forM_rules, forM_eq_error_iff]
  simp only [validateEntry_eq_ok_iff]
  constructor
  · rintro ⟨⟨list', index', r⟩, hfirst, hentry⟩
    obtain ⟨cause', hr, h⟩ := mapError_eq_error_iff.1 hentry
    cases h
    exact ⟨r, firstNot_rules_iff.1 hfirst, hr⟩
  · rintro ⟨r, hfirst, hr⟩
    exact ⟨(list, index, r), firstNot_rules_iff.2 hfirst,
      mapError_eq_error_iff.2 ⟨cause, hr, rfl⟩⟩

end Specification

/-! ## The outcome of checking -/

/-- **What is checked, and what is reported.** A rule is in order if each rule in its tree keeps its
own conditions, and otherwise the report is on the first that breaks one. A specification is in
order if the rules of both lists are, and otherwise the report is on the first that is not, with its
place. -/
theorem Rule.validate_outcome :
    (∀ r : Rule,
      (r.validate = .ok () ↔ ∀ x ∈ r.nodes, x.Fits) ∧
      ∀ e, r.validate = .error e ↔ ∃ x, FirstNot Fits r.nodes x ∧ x.Breaks e) ∧
    ∀ s : Specification,
      (s.validate = .ok () ↔ ∀ r ∈ s.allowlist ++ s.blocklist, r.validate = .ok ()) ∧
      ∀ list index cause, s.validate = .error ⟨list, index, cause⟩ ↔
        ∃ r, s.FirstAt (fun r => r.validate = .ok ()) list index r ∧
          r.validate = .error cause := by
  refine ⟨fun r => ⟨Rule.validate_eq_ok_iff, fun e => Rule.validate_eq_error_iff⟩,
    fun s => ⟨Specification.validate_eq_ok_iff, fun list index cause => ?_⟩⟩
  exact Specification.validate_eq_error_iff

/-- The first fault is inside the first part, and the rule without a source after it is not
reported. -/
example : (Rule.composition .union
    [.composition .intersection [.fragmentation 3 3], .simple .annotationName .none]).validate =
      .error (.indexOutOfRange 3 3) := by decide

end TestSelection
