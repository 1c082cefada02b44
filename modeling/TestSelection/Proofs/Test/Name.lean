import TestSelection.Proofs.Filter.Meaning

/-!
# What a qualified name says

A qualified name is put together from three texts, and the marks between them may stand in the texts
as well. It can be taken apart all the same if the class has no mark in it and the package no `#`:
the method starts behind the first `#`, and the class behind the last point before it. Without a
package there is no point before the class, and with one there is.

**Theorem (`TestCase.qualifiedName_identifies`).** Two such tests with the same qualified name have
the same package, class and method. So a rule with the name of a test as its only value accepts the
test, and of all such tests only those that have its package, class and method.
-/

namespace TestSelection

/-! ## Cutting texts -/

namespace Text

variable {mark : Char} {a a' b b' : List Char}

/-- There is one way to cut a text at the first mark. -/
theorem eq_of_append_mark_eq (ha : mark ∉ a) (ha' : mark ∉ a')
    (h : a ++ mark :: b = a' ++ mark :: b') : a = a' ∧ b = b' := by
  have hfirst {a b : List Char} (ha : mark ∉ a) : (a ++ mark :: b).takeWhile (· != mark) = a := by
    have hall : ∀ c ∈ a, (c != mark) = true := fun c hc => bne_iff_ne.2 fun heq => ha (heq ▸ hc)
    rw [List.takeWhile_append_of_pos hall, List.takeWhile_cons_of_neg (by simp), List.append_nil]
  have heq : a = a' := by rw [← hfirst ha (b := b), h, hfirst ha']
  subst heq
  exact ⟨rfl, (List.cons.inj (List.append_cancel_left h)).2⟩

/-- There is one way to cut a text at the last mark. -/
theorem eq_of_append_mark_eq_last (hb : mark ∉ b) (hb' : mark ∉ b')
    (h : a ++ mark :: b = a' ++ mark :: b') : a = a' ∧ b = b' := by
  have hreverse : b.reverse ++ mark :: a.reverse = b'.reverse ++ mark :: a'.reverse := by
    simpa using congrArg List.reverse h
  obtain ⟨hafter, hbefore⟩ := eq_of_append_mark_eq (by simpa using hb) (by simpa using hb') hreverse
  exact ⟨List.reverse_inj.1 hbefore, List.reverse_inj.1 hafter⟩

end Text

/-! ## Names -/

namespace TestCase

variable {t u : TestCase}

/-- The marks of qualified names do not get in the way: neither is in the class, and `#` is not in
the package. -/
structure Separable (t : TestCase) : Prop where
  point_not_mem : '.' ∉ t.className.toList
  hash_not_mem : '#' ∉ t.className.toList
  hash_not_mem_package : '#' ∉ t.package.toList

theorem toList_qualifiedClass (t : TestCase) :
    t.qualifiedClass.toList =
      if t.package = "" then t.className.toList
      else t.package.toList ++ '.' :: t.className.toList := by
  unfold qualifiedClass
  split_ifs
  · rfl
  · rw [String.toList_append, String.toList_append, List.append_assoc]
    rfl

theorem toList_qualifiedName (t : TestCase) :
    t.qualifiedName.toList = t.qualifiedClass.toList ++ '#' :: t.method.toList := by
  rw [qualifiedName, String.toList_append, String.toList_append, List.append_assoc]
  rfl

/-- The package and the class can be read off the name of the class. -/
theorem eq_of_qualifiedClass_eq (ht : '.' ∉ t.className.toList) (hu : '.' ∉ u.className.toList)
    (h : t.qualifiedClass = u.qualifiedClass) :
    t.package = u.package ∧ t.className = u.className := by
  replace h := congrArg String.toList h
  rw [toList_qualifiedClass, toList_qualifiedClass] at h
  split_ifs at h with htnone hunone hunone
  · exact ⟨htnone.trans hunone.symm, String.toList_inj.1 h⟩
  · -- The point behind a package would be in the class of the other test.
    exact absurd (h ▸ List.mem_append_right _ List.mem_cons_self) ht
  · exact absurd (h ▸ List.mem_append_right _ List.mem_cons_self) hu
  · obtain ⟨hpackage, hclass⟩ := Text.eq_of_append_mark_eq_last ht hu h
    exact ⟨String.toList_inj.1 hpackage, String.toList_inj.1 hclass⟩

theorem Separable.hash_not_mem_qualifiedClass (h : t.Separable) :
    '#' ∉ t.qualifiedClass.toList := by
  rw [toList_qualifiedClass]
  split_ifs
  · exact h.hash_not_mem
  · simp [h.hash_not_mem, h.hash_not_mem_package]

/-- All three parts can be read off the name of a test. -/
theorem eq_of_qualifiedName_eq (ht : t.Separable) (hu : u.Separable)
    (h : t.qualifiedName = u.qualifiedName) :
    t.package = u.package ∧ t.className = u.className ∧ t.method = u.method := by
  replace h := congrArg String.toList h
  rw [toList_qualifiedName, toList_qualifiedName] at h
  obtain ⟨hclass, hmethod⟩ := Text.eq_of_append_mark_eq ht.hash_not_mem_qualifiedClass
    hu.hash_not_mem_qualifiedClass h
  obtain ⟨hpackage, hclass⟩ :=
    eq_of_qualifiedClass_eq ht.point_not_mem hu.point_not_mem (String.toList_inj.1 hclass)
  exact ⟨hpackage, hclass, String.toList_inj.1 hmethod⟩

theorem qualifiedName_congr (hpackage : t.package = u.package) (hclass : t.className = u.className)
    (hmethod : t.method = u.method) : t.qualifiedName = u.qualifiedName := by
  rw [qualifiedName, qualifiedName, qualifiedClass, qualifiedClass, hpackage, hclass, hmethod]

end TestCase

/-- A rule with one qualified name accepts the tests with that name. -/
theorem Filter.accepts_qualifiedName_iff {name : String} {t : TestCase} :
    (Filter.simple .qualifiedName (.values [name].eraseDups)).accepts t = true ↔
      t.qualifiedName = name := by
  rw [accepts_values_iff]
  simp [Attribute.valuesIn]

/-! ## Tests by their names -/

/-- **A qualified name is the name of one test.** If the name of a test can be taken apart, then
every other such test with this qualified name has the same package, class and method, and every one
with the same qualified class the same package and class. The rule with the name of the test as its
value accepts the test, and of the other tests those with the same package, class and method. -/
theorem TestCase.qualifiedName_identifies (t : TestCase) (ht : t.Separable) :
    (∀ u : TestCase, u.Separable →
      (t.qualifiedName = u.qualifiedName →
        t.package = u.package ∧ t.className = u.className ∧ t.method = u.method) ∧
      (t.qualifiedClass = u.qualifiedClass →
        t.package = u.package ∧ t.className = u.className)) ∧
    ∀ cx : Context, ∃ f,
      (Rule.simple .qualifiedName (.ofValues [t.qualifiedName])).compile cx = .ok f ∧
        f.accepts t = true ∧
        ∀ u : TestCase, u.Separable →
          (f.accepts u = true ↔
            u.package = t.package ∧ u.className = t.className ∧ u.method = t.method) := by
  refine ⟨fun u hu => ⟨eq_of_qualifiedName_eq ht hu,
    eq_of_qualifiedClass_eq ht.point_not_mem hu.point_not_mem⟩, fun cx =>
    ⟨_, Rule.compile_ofValues _, Filter.accepts_qualifiedName_iff.2 rfl, fun u hu => ?_⟩⟩
  rw [Filter.accepts_qualifiedName_iff]
  constructor
  · exact eq_of_qualifiedName_eq hu ht
  · rintro ⟨hpackage, hclass, hmethod⟩
    exact qualifiedName_congr hpackage hclass hmethod

namespace Sample

/-- A test in a package of two parts, with both marks in the name of its method. -/
def marked : TestCase := .ofNames "com.example" "FooTest" "a.b#c"

theorem separable_marked : marked.Separable := ⟨by decide, by decide, by decide⟩

end Sample

/-- The sample test and the one that has the last part of the package for its own package. -/
theorem TestCase.qualifiedName_identifies_sample :
    Sample.marked.Separable ∧ (TestCase.ofNames "example" "FooTest" "a.b#c").Separable ∧
      Sample.marked.qualifiedName = "com.example.FooTest#a.b#c" ∧
      ∃ f, (Rule.simple .qualifiedName (.ofValues ["com.example.FooTest#a.b#c"])).compile
          Sample.context = .ok f ∧
        f.accepts Sample.marked = true ∧
        f.accepts (.ofNames "example" "FooTest" "a.b#c") = false := by
  have hother : (TestCase.ofNames "example" "FooTest" "a.b#c").Separable :=
    ⟨by decide, by decide, by decide⟩
  refine ⟨Sample.separable_marked, hother, by decide, ?_⟩
  obtain ⟨f, hcompile, haccepts, honly⟩ :=
    (TestCase.qualifiedName_identifies Sample.marked Sample.separable_marked).2 Sample.context
  refine ⟨f, hcompile, haccepts, Bool.eq_false_iff.2 fun h => ?_⟩
  exact absurd ((honly _ hother).1 h).1 (by decide)

end TestSelection
