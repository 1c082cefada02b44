import TestSelection.Proofs.Composition
import TestSelection.Proofs.Results

/-!
# What compiling gives

A rule compiles in two passes: it is checked as a whole, and then turned into a filter. This file
says for each kind of rule when both passes go through and which filter comes out, so that no
other proof looks into the two passes.

For compositions the result is `compile_composition`: a composition compiles if its rules compile
each on its own, to the composition of their filters. The check before the first file is read makes
no difference to that, because a rule that compiles was in order.
-/

namespace TestSelection

/-! ## Sources -/

/-- The source that has nothing but one way to say its values. -/
def SoleSource.source : SoleSource → Source
  | .regex r => .ofRegex r
  | .values vs => .ofValues vs
  | .file path => .ofFile path

namespace Source

variable {cx : Context} {kind : RuleKind} {s : Source}

theorem sole_eq_ok_iff {sole : SoleSource} : s.sole kind = .ok sole ↔ s = sole.source := by
  obtain ⟨regex, values, file⟩ := s
  cases sole <;> cases regex <;> cases values <;> cases file <;>
    simp [Source.sole, SoleSource.source, ofRegex, ofValues, ofFile, Source.none]

theorem validate_eq_ok_iff : s.validate kind = .ok () ↔ ∃ sole : SoleSource, s = sole.source := by
  simp only [Source.validate, bind_eq_ok_iff, sole_eq_ok_iff, pure_eq_ok_iff, and_true]

theorem compile_eq_ok_iff {m : Matcher} :
    s.compile cx kind = .ok m ↔
      ∃ sole : SoleSource, s = sole.source ∧ sole.compile cx kind = .ok m := by
  simp only [← @sole_eq_ok_iff kind]
  rw [Source.compile]
  cases s.sole kind with
  | ok sole => simp
  | error cause => simp

/-- A source that compiles is in order. -/
theorem validate_of_compile {m : Matcher} (h : s.compile cx kind = .ok m) :
    s.validate kind = .ok () := by
  obtain ⟨sole, hs, -⟩ := compile_eq_ok_iff.1 h
  exact validate_eq_ok_iff.2 ⟨sole, hs⟩

end Source

/-! ## Rules without parts -/

/-- The number of a bucket is in order if there is such a bucket. -/
theorem validateFragment_eq_ok_iff {index count : Int32} :
    validateFragment index count = .ok () ↔ 0 ≤ index ∧ index < count := by
  unfold validateFragment
  simp only [Int32.lt_iff_toInt_lt, Int32.le_iff_toInt_le, Int32.toInt_zero]
  -- Each of the three faults puts the number out of range, and together they leave no other way.
  split_ifs with hi hc hle
  · simp only [false_iff]
    omega
  · simp only [false_iff]
    omega
  · simp only [false_iff]
    omega
  · simp only [true_iff]
    omega

namespace Rule

variable {cx : Context} {f : Filter}

/-- To compile is to check and then to compile without a check. -/
theorem compile_eq_ok_iff {r : Rule} :
    r.compile cx = .ok f ↔ r.validate = .ok () ∧ r.compileChecked cx = .ok f := by
  unfold compile
  cases r.validate with
  | ok _ => simp
  | error cause => simp

theorem compile_simple {attr : Attribute} {source : Source} :
    (Rule.simple attr source).compile cx = .ok f ↔
      ∃ m, source.compile cx (.simple attr) = .ok m ∧ f = .simple attr m := by
  simp only [compile_eq_ok_iff, validate, compileChecked, bind_eq_ok_iff, pure_eq_ok_iff]
  refine and_iff_right_of_imp ?_
  rintro ⟨m, hm, -⟩
  exact Source.validate_of_compile hm

/-- A rule with a list of values compiles to a filter with these values, each taken once. -/
theorem compile_ofValues {attr : Attribute} (vs : List String) :
    (Rule.simple attr (.ofValues vs)).compile cx = .ok (.simple attr (.values vs.eraseDups)) :=
  compile_simple.2 ⟨_, Source.compile_eq_ok_iff.2 ⟨.values vs, rfl, rfl⟩, rfl⟩

/-- A rule with a file compiles if the file can be read, to a filter with its values. -/
theorem compile_file_iff {attr : Attribute} {p : Path} :
    (Rule.simple attr ⟨none, none, some p⟩).compile cx = .ok f ↔
      ∃ text, cx.readText p = .ok text ∧ f = .simple attr (.values (valuesOfText text)) := by
  rw [compile_simple, Source.compile]
  cases hp : cx.readText p with
  | ok text => simp [Source.sole, SoleSource.compile, hp, eq_comm]
  | error cause => simp [Source.sole, SoleSource.compile, hp]

theorem compile_annotationData {name value : Regex} :
    (Rule.annotationData name value).compile cx = .ok f ↔ f = .annotationData name value := by
  rw [compile_eq_ok_iff, validate, compileChecked]
  simp [eq_comm]

theorem compile_fragmentation {index count : Int32} :
    (Rule.fragmentation index count).compile cx = .ok f ↔
      (0 ≤ index ∧ index < count) ∧ f = .fragment (.ofRule index count) := by
  rw [compile_eq_ok_iff, validate, compileChecked, validateFragment_eq_ok_iff]
  simp [eq_comm]

/-! ## Compositions -/

/-- Rules compile one by one, each on its own, to filters. -/
abbrev CompileTo (cx : Context) (rules : List Rule) (fs : List Filter) : Prop :=
  List.Forall₂ (fun r f => r.compile cx = .ok f) rules fs

theorem CompileTo.exists_of_mem {rules : List Rule} {fs : List Filter} (h : CompileTo cx rules fs)
    {r : Rule} (hr : r ∈ rules) : ∃ f, r.compile cx = .ok f := by
  induction h with
  | nil => cases hr
  | cons hf _ ih =>
    rcases List.mem_cons.1 hr with rfl | hr
    · exact ⟨_, hf⟩
    · exact ih hr

/-- Rules compile one by one if each of them does. -/
theorem exists_compileTo_iff {rules : List Rule} :
    (∃ fs, CompileTo cx rules fs) ↔ ∀ r ∈ rules, ∃ f, r.compile cx = .ok f := by
  constructor
  · rintro ⟨fs, h⟩ r hr
    exact h.exists_of_mem hr
  · intro h
    induction rules with
    | nil => exact ⟨[], .nil⟩
    | cons r rules ih =>
      obtain ⟨⟨f, hf⟩, hrules⟩ := List.forall_mem_cons.1 h
      obtain ⟨fs, hfs⟩ := ih hrules
      exact ⟨f :: fs, .cons hf hfs⟩

theorem validateAll_eq_ok_iff {rules : List Rule} :
    validateAll rules = .ok () ↔ ∀ r ∈ rules, r.validate = .ok () := by
  induction rules with
  | nil => simp [validateAll]
  | cons r rules ih =>
    rw [validateAll, bind_eq_ok_iff, List.forall_mem_cons, ← ih]
    exact Unique.exists_iff

theorem compileEach_eq_ok_iff {rules : List Rule} {fs : List Filter} :
    compileEach cx rules = .ok fs ↔
      List.Forall₂ (fun r f => r.compileChecked cx = .ok f) rules fs := by
  induction rules generalizing fs with
  | nil => simp [compileEach, eq_comm]
  | cons r rules ih =>
    simp only [compileEach, bind_eq_ok_iff, pure_eq_ok_iff, ih, List.forall₂_cons_left_iff,
      exists_and_left]

/-- A composition compiles if its rules compile each on its own. -/
theorem compile_composition {operator : Operator} {rules : List Rule} :
    (Rule.composition operator rules).compile cx = .ok f ↔
      ∃ fs, CompileTo cx rules fs ∧ f = .composition operator fs := by
  simp only [CompileTo, compile_eq_ok_iff, List.forall₂_and_left, ← compileEach_eq_ok_iff,
    ← validateAll_eq_ok_iff]
  simp only [validate, compileChecked, bind_eq_ok_iff, pure_eq_ok_iff, and_assoc,
    exists_and_left]

theorem exists_compile_composition {operator : Operator} {rules : List Rule} :
    (∃ f, (Rule.composition operator rules).compile cx = .ok f) ↔
      ∀ r ∈ rules, ∃ f, r.compile cx = .ok f := by
  rw [← exists_compileTo_iff]
  constructor
  · rintro ⟨f, hf⟩
    obtain ⟨fs, hfs, -⟩ := compile_composition.1 hf
    exact ⟨fs, hfs⟩
  · rintro ⟨fs, hfs⟩
    exact ⟨_, compile_composition.2 ⟨fs, hfs, rfl⟩⟩

end Rule

/-! ## A sample -/

namespace Sample

/-- A directory with one file of values. -/
def context : Context :=
  ⟨(Files.empty.write ⟨"skip.txt"⟩ " com.example \r\n\n".toUTF8.toList).access, none⟩

/-- The tests outside of the packages of the file, without the first half of all tests. -/
def rule : Rule :=
  .composition .subtract [.simple .package (.ofFile ⟨"skip.txt"⟩), .fragmentation 0 2]

def filter : Filter :=
  .composition .subtract [.simple .package (.values ["com.example"]), .fragment ⟨0, 2⟩]

theorem valuesOfText_skip : valuesOfText " com.example \r\n\n" = ["com.example"] := by
  decide +kernel

theorem compile_method {cx : Context} : (Rule.simple .method (.ofValues ["testA"])).compile cx =
    .ok (.simple .method (.values ["testA"])) :=
  Rule.compile_ofValues ["testA"]

theorem compile_fragment {cx : Context} :
    (Rule.fragmentation 0 2).compile cx = .ok (.fragment ⟨0, 2⟩) :=
  Rule.compile_fragmentation.2 ⟨by decide, congrArg Filter.fragment (by decide)⟩

theorem compile_rule : rule.compile context = .ok filter := by
  have hread : context.readText ⟨"skip.txt"⟩ = .ok " com.example \r\n\n" := by decide +kernel
  have hskip : (Rule.simple .package (.ofFile ⟨"skip.txt"⟩)).compile context =
      .ok (.simple .package (.values ["com.example"])) :=
    Rule.compile_file_iff.2 ⟨_, hread, by rw [valuesOfText_skip]⟩
  exact Rule.compile_composition.2 ⟨_, .cons hskip (.cons compile_fragment .nil), rfl⟩

end Sample

end TestSelection
