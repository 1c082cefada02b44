import TestSelection.Proofs.Rule.Equality
import TestSelection.Proofs.Selection.Policy

/-!
# Equal rules behave alike

Equal rules can differ in the order of the rules in a composition, on any level, and in the way in
which a path is written. Neither makes a difference to what a rule does.

**Theorem (`alike_of_beq`).** Of two equal rules both are in order or neither is. Suppose that files
under equal paths of the two rules are read with the same outcome. Then both rules compile or
neither does, and their filters accept the same tests and keep and drop the same of each list.

Paths that have the same components can lead to different outcomes all the same: a separator at the
end asks for a directory. This is why the theorem has its assumption, and why that is about the
files of the two rules only (`ReadAlike`).

The proof is an induction on equality. For compositions it takes no more than that each rule on one
side has a partner on the other: an operator does not ask for order, nor how often a rule occurs
(`Operator.combines_iff_of_paired`).
-/

namespace TestSelection

variable {cx : Context} {a b : Rule}

/-! ## Checking -/

/-- Equal sources are the same, but for the way in which a path is written. -/
theorem Source.Equal.eq_or_file {s t : Source} (h : s.Equal t) :
    s = t ∨ ∃ regex values p q, s = ⟨regex, values, some p⟩ ∧ t = ⟨regex, values, some q⟩ ∧
      p.components = q.components := by
  obtain ⟨regex, values, file⟩ := s
  obtain ⟨regex', values', file'⟩ := t
  obtain ⟨hregex, hvalues, hfile⟩ := h
  obtain rfl : regex = regex' := Option.map_injective Regex.source_injective hregex
  obtain rfl : values = values' := hvalues
  cases file with
  | none =>
    cases file' with
    | none => exact .inl rfl
    | some q => cases hfile
  | some p =>
    cases file' with
    | none => cases hfile
    | some q => exact .inr ⟨regex, values, p, q, rfl, rfl, Option.some_inj.1 hfile⟩

/-- A source with a file is in order if it has nothing else. -/
theorem Source.validate_file_iff {regex : Option Regex} {values : Option (List String)} {p : Path}
    {kind : RuleKind} :
    (Source.mk regex values (some p)).validate kind = .ok () ↔ regex = .none ∧ values = .none := by
  rw [validate_eq_ok_iff]
  constructor
  · rintro ⟨sole, h⟩
    cases sole <;> cases h
    exact ⟨rfl, rfl⟩
  · rintro ⟨rfl, rfl⟩
    exact ⟨.file p, rfl⟩

theorem Source.Equal.validate_iff {s t : Source} {kind : RuleKind} (h : s.Equal t) :
    s.validate kind = .ok () ↔ t.validate kind = .ok () := by
  obtain rfl | ⟨regex, values, p, q, rfl, rfl, -⟩ := h.eq_or_file
  · rfl
  · rw [validate_file_iff, validate_file_iff]

/-- Of two equal rules both are in order or neither is. -/
theorem Rule.Equal.validate_iff (h : a.Equal b) : a.validate = .ok () ↔ b.validate = .ok () := by
  induction h with
  | fields h =>
    cases h with
    | simple sources => exact sources.validate_iff
    | annotationData name value => rfl
    | fragmentation index count => rfl
  | @composition operator rs ss e _ ih =>
    rw [validate, validate, validateAll_eq_ok_iff, validateAll_eq_ok_iff]
    exact Paired.forall_iff ⟨e, ih⟩

/-! ## Reading -/

namespace Rule

/-- Where the two rules have files under the same path, one is read if the other is, with the same
text. -/
def ReadAlike (cx : Context) (a b : Rule) : Prop :=
  ∀ x ∈ a.files, ∀ y ∈ b.files, x.2.same y.2 = true →
    ∀ text, cx.readText x.2 = .ok text ↔ cx.readText y.2 = .ok text

theorem mem_filesOf {rules : List Rule} {x : RuleKind × Path} :
    x ∈ filesOf rules ↔ ∃ r ∈ rules, x ∈ r.files := by
  induction rules with
  | nil => simp [filesOf]
  | cons r rules ih => rw [filesOf, List.mem_append, ih, List.exists_mem_cons_iff]

/-- What is read alike for compositions is read alike for their rules. -/
theorem ReadAlike.of_mem {o p : Operator} {rs ss : List Rule}
    (h : ReadAlike cx (.composition o rs) (.composition p ss)) {r s : Rule} (hr : r ∈ rs)
    (hs : s ∈ ss) : ReadAlike cx r s := by
  intro x hx y hy
  exact h x (mem_filesOf.2 ⟨r, hr, hx⟩) y (mem_filesOf.2 ⟨s, hs, hy⟩)

/-! ## Compiling -/

/-- Two rules come to the same: both compile or neither does, and they accept the same tests. -/
structure Alike (cx : Context) (a b : Rule) : Prop where
  compiles : (∃ f, a.compile cx = .ok f) ↔ ∃ g, b.compile cx = .ok g
  admits : ∀ t, a.Admits cx t ↔ b.Admits cx t

/-- Rules with the same filters are alike. -/
theorem Alike.of_compile_iff (h : ∀ f, a.compile cx = .ok f ↔ b.compile cx = .ok f) :
    Alike cx a b := by
  refine ⟨exists_congr h, fun t => ?_⟩
  simp only [Admits, h]

/-- Compositions of rules that are alike in pairs are alike. -/
theorem Alike.composition {operator : Operator} {rs ss : List Rule}
    (h : Paired (Alike cx) rs ss) :
    Alike cx (.composition operator rs) (.composition operator ss) := by
  obtain ⟨e, he⟩ := h
  have hcompile : (∀ r ∈ rs, ∃ f, r.compile cx = .ok f) ↔ ∀ s ∈ ss, ∃ f, s.compile cx = .ok f :=
    Paired.forall_iff ⟨e, fun i => (he i).compiles⟩
  constructor
  · rw [exists_compile_composition, exists_compile_composition]
    exact hcompile
  · intro t
    have hadmits : operator.Combines (Admits cx t) rs ↔ operator.Combines (Admits cx t) ss :=
      operator.combines_iff_of_paired ⟨e, fun i => (he i).admits t⟩
    rw [admits_composition, admits_composition, hcompile, hadmits]

/-- Simple rules with equal sources have the same filter. -/
theorem compile_simple_iff {attr : Attribute} {s t : Source} {f : Filter} (h : s.Equal t)
    (hread : ReadAlike cx (.simple attr s) (.simple attr t)) :
    (Rule.simple attr s).compile cx = .ok f ↔ (Rule.simple attr t).compile cx = .ok f := by
  obtain rfl | ⟨regex, values, p, q, rfl, rfl, hpq⟩ := h.eq_or_file
  · rfl
  by_cases hsole : regex = .none ∧ values = .none
  · obtain ⟨rfl, rfl⟩ := hsole
    have htext := hread (.simple attr, p) (by simp [files, Source.sole]) (.simple attr, q)
      (by simp [files, Source.sole]) (by simp [Path.same, hpq])
    rw [compile_file_iff, compile_file_iff]
    simp only [htext]
  · -- With anything else beside the file, neither rule is in order.
    have hinvalid (path : Path) :
        (Rule.simple attr ⟨regex, values, some path⟩).validate ≠ .ok () := by
      rw [validate, ne_eq, Source.validate_file_iff]
      exact hsole
    simp only [Rule.compile_eq_ok_iff, hinvalid, false_and]

/-- Rules without parts and with equal fields have the same filter. -/
theorem FieldsEqual.compile_iff (h : a.FieldsEqual b) (hread : ReadAlike cx a b) (f : Filter) :
    a.compile cx = .ok f ↔ b.compile cx = .ok f := by
  cases h with
  | simple sources => exact compile_simple_iff sources hread
  | annotationData name value =>
    rw [Regex.source_injective name, Regex.source_injective value]
  | fragmentation index count => rfl

theorem Equal.alike (h : a.Equal b) (hread : ReadAlike cx a b) : Alike cx a b := by
  induction h with
  | fields h => exact .of_compile_iff (h.compile_iff hread)
  | @composition operator rs ss e _ ih =>
    exact .composition
      ⟨e, fun i => ih i (hread.of_mem (List.getElem_mem _) (List.getElem_mem _))⟩

end Rule

/-! ## A sample -/

namespace Sample

/-- A directory with a file of values in a directory. -/
def listContext : Context :=
  ⟨(Files.empty.write ⟨"lists/skip.txt"⟩ " com.example \r\n\n".toUTF8.toList).access, none⟩

theorem readText_skip : listContext.readText ⟨"lists/skip.txt"⟩ = .ok " com.example \r\n\n" := by
  decide +kernel

theorem readAlike_nested : Rule.ReadAlike listContext nested reordered := by
  intro x hx y hy _ text
  obtain rfl : x = (.simple .package, ⟨"lists/skip.txt"⟩) := List.mem_singleton.1 hx
  obtain rfl : y = (.simple .package, ⟨"lists/.//skip.txt"⟩) := List.mem_singleton.1 hy
  have hsame : listContext.readText ⟨"lists/.//skip.txt"⟩ = .ok " com.example \r\n\n" := by
    decide +kernel
  rw [readText_skip, hsame]

theorem compile_nested : nested.compile listContext =
    .ok (.composition .intersection [filter, .simple .method (.values ["testA"])]) := by
  have hskip : (Rule.simple .package (.ofFile ⟨"lists/skip.txt"⟩)).compile listContext =
      .ok (.simple .package (.values ["com.example"])) :=
    Rule.compile_file_iff.2 ⟨_, readText_skip, by rw [valuesOfText_skip]⟩
  have hremainder : remainder.compile listContext = .ok filter :=
    Rule.compile_composition.2 ⟨_, .cons hskip (.cons compile_fragment .nil), rfl⟩
  exact Rule.compile_composition.2 ⟨_, .cons hremainder (.cons compile_method .nil), rfl⟩

end Sample

/-! ## Equal rules -/

namespace Rule

/-- **Equal rules behave alike.** Both are in order or neither is. If files under equal paths are
read alike, both compile or neither does, and their filters accept the same tests and keep and drop
the same tests of each list. -/
theorem alike_of_beq {a b : Rule} (h : (a == b) = true) :
    (a.validate = .ok () ↔ b.validate = .ok ()) ∧
      ∀ cx, ReadAlike cx a b →
        ((∃ f, a.compile cx = .ok f) ↔ ∃ g, b.compile cx = .ok g) ∧
        ∀ f g, a.compile cx = .ok f → b.compile cx = .ok g →
          (∀ t, f.accepts t = g.accepts t) ∧
          ∀ tests, f.keep tests = g.keep tests ∧ f.drop tests = g.drop tests := by
  have hequal := beq_iff_equal.1 h
  refine ⟨hequal.validate_iff, fun cx hread => ?_⟩
  have halike := hequal.alike hread
  refine ⟨halike.compiles, fun f g hf hg => ?_⟩
  have haccepts (t : TestCase) : f.accepts t = g.accepts t := by
    rw [Bool.eq_iff_iff, ← admits_iff hf, ← admits_iff hg]
    exact halike.admits t
  refine ⟨haccepts, fun tests => ?_⟩
  rw [Filter.keep_eq_filter, Filter.keep_eq_filter, Filter.drop_eq_filter, Filter.drop_eq_filter,
    funext haccepts]
  exact ⟨rfl, rfl⟩

/-- Rules in another order on two levels, with two ways to write the path of a file. -/
theorem alike_of_beq_sample :
    (Sample.nested == Sample.reordered) = true ∧
      ReadAlike Sample.listContext Sample.nested Sample.reordered ∧
      ∃ g, Sample.reordered.compile Sample.listContext = .ok g ∧
        g.keep Sample.tests = [.ofNames "com.other" "FooTest" "testA"] := by
  have h : (Sample.nested == Sample.reordered) = true := beq_iff_equal.2 Sample.nested_equal
  obtain ⟨hcompiles, hsame⟩ := (alike_of_beq h).2 Sample.listContext Sample.readAlike_nested
  obtain ⟨g, hg⟩ := hcompiles.1 ⟨_, Sample.compile_nested⟩
  refine ⟨h, Sample.readAlike_nested, g, hg, ?_⟩
  rw [← ((hsame _ g Sample.compile_nested hg).2 Sample.tests).1]
  decide +kernel

end Rule

end TestSelection
