import Mathlib.Logic.Relation
import Mathlib.Tactic.IntervalCases
import Mathlib.Tactic.SplitIfs
import TestSelection.Proofs.Json.Acceptance
import TestSelection.Proofs.Json.Variant
import TestSelection.Proofs.Test.Written

/-!
# Test lists with other members

Test lists come from other programs, which add members of their own. The records of a test list are
the list, its tests and their annotations. Each may be changed in the ways of `Record.Variant`, and
a change of a test or of an annotation is one of what it stands in (`TestList.Variant`).

**Theorem (`TestList.tolerant`).** If a test list is read from a text, the same list is read from
each text of a variant, and a variant has a text. No list is read if some test has no class or no
method, or a field twice, whatever else the text contains.

A text is JSON by the rules of the grammar (`SpellsDocument`), which know of no reader. That the
reader accepts what the grammar allows, and nothing else, is `spellsDocument_iff`.
-/

namespace TestSelection

open Json (Document Manner SpellsDocument Tree spellsDocument_iff)

variable {manner : Manner} {t t' x : Tree}

/-! ## Annotations -/

namespace Annotation

/-- What a field without a value holds, if it may be left out. -/
def absent : (f : Field) → Option f.Holds
  | .name => none
  | .value => some none

/-- A tree that says the same of a field as nothing. -/
def IsDefault (f : Field) (x : Tree) : Prop := f = .value ∧ x = .null

/-- A change of an annotation. -/
def Variant : Tree → Tree → Prop := record.Variant IsDefault fun _ _ _ => False

theorem field?_name (f : Field) : record.field? (record.name f) = some f := by cases f <;> rfl

theorem ofTree_eq_ok_iff {a : Annotation} :
    ofTree manner t = .ok a ↔
      ∃ fields, t.record record (manner.reading readField) = .ok fields ∧
        ∀ f, (fields.values f).or (absent f) = some (a.held f) := by
  simp only [ofTree, bind_eq_ok_iff, Json.ofShape, mapError_eq_ok_iff, pure_eq_ok_iff]
  refine exists_congr fun fields => and_congr_right fun _ => ?_
  constructor
  · rintro ⟨name, hname, rfl⟩ f
    cases f with
    | name => exact Record.required_eq_ok_iff_or.1 hname
    | value => exact Record.optional_eq_iff_or.1 rfl
  · intro h
    refine ⟨a.name, Record.required_eq_ok_iff_or.2 (h .name), ?_⟩
    rw [Record.optional_eq_iff_or.2 (h .value)]
    rfl

theorem Variant.spelled (h : Variant t t') (ht : t.Spelled) : t'.Spelled := by
  refine Record.Variant.spelled h ?_ (fun _ _ _ h => h.elim) ht
  rintro f x ⟨-, rfl⟩
  exact ⟨_, .null⟩

theorem ofTree_variant {a : Annotation} (h : Variant t t') (ht : ofTree manner t = .ok a) :
    ofTree manner t' = .ok a := by
  rw [ofTree_eq_ok_iff] at ht ⊢
  refine Record.Variant.exists_record field?_name (fun _ _ _ hx => hx.skip_eq) ?_ ?_ h ht
  · rintro f x ⟨rfl, rfl⟩
    exact ⟨none, rfl, rfl⟩
  · exact fun _ _ _ h => h.elim

end Annotation

/-! ## Tests -/

namespace TestCase

/-- What a field without a value holds, if it may be left out. -/
def absent : (f : Field) → Option f.Holds
  | .package => some ""
  | .className => none
  | .method => none
  | .annotations => some []

/-- A tree that says the same of a field as nothing. -/
def IsDefault (f : Field) (x : Tree) : Prop :=
  f = .package ∧ x = .string "" ∨ f = .annotations ∧ x = .array []

/-- A change of a test, or of one of its annotations. -/
def Variant : Tree → Tree → Prop :=
  record.Variant IsDefault fun f x x' => f = .annotations ∧ Tree.ItemVariant Annotation.Variant x x'

theorem field?_name (f : Field) : record.field? (record.name f) = some f := by cases f <;> rfl

theorem ofTree_eq_ok_iff {c : TestCase} :
    ofTree manner t = .ok c ↔
      ∃ fields, t.record record (manner.reading (readField manner)) = .ok fields ∧
        ∀ f, (fields.values f).or (absent f) = some (c.held f) := by
  simp only [ofTree, bind_eq_ok_iff, Json.ofShape, mapError_eq_ok_iff, pure_eq_ok_iff]
  refine exists_congr fun fields => and_congr_right fun _ => ?_
  constructor
  · rintro ⟨className, hclass, method, hmethod, rfl⟩ f
    cases f with
    | package => exact Record.optional_eq_iff_or.1 rfl
    | className => exact Record.required_eq_ok_iff_or.1 hclass
    | method => exact Record.required_eq_ok_iff_or.1 hmethod
    | annotations => exact Record.optional_eq_iff_or.1 rfl
  · intro h
    refine ⟨c.className, Record.required_eq_ok_iff_or.2 (h .className), c.method,
      Record.required_eq_ok_iff_or.2 (h .method), ?_⟩
    rw [Record.optional_eq_iff_or.2 (h .package), Record.optional_eq_iff_or.2 (h .annotations)]
    rfl

theorem Variant.spelled (h : Variant t t') (ht : t.Spelled) : t'.Spelled := by
  refine Record.Variant.spelled h ?_ ?_ ht
  · rintro f x (⟨-, rfl⟩ | ⟨-, rfl⟩)
    · exact ⟨_, Json.spells_quote ""⟩
    · exact ⟨_, Json.spells_emptyArray⟩
  · rintro f x x' ⟨-, hx⟩
    exact hx.spelled fun _ _ => Annotation.Variant.spelled

theorem ofTree_variant {c : TestCase} (h : Variant t t') (ht : ofTree manner t = .ok c) :
    ofTree manner t' = .ok c := by
  rw [ofTree_eq_ok_iff] at ht ⊢
  refine Record.Variant.exists_record field?_name (fun _ _ _ hx => hx.skip_eq) ?_ ?_ h ht
  · rintro f x (⟨rfl, rfl⟩ | ⟨rfl, rfl⟩)
    · exact ⟨"", rfl, rfl⟩
    · exact ⟨[], rfl, rfl⟩
  · rintro f x x' ⟨rfl, hx⟩ as has
    exact hx.each (fun _ _ _ => Annotation.ofTree_variant) has

/-- A tree that gives no test: it has no class or no method, or a field twice. An array has the
class and the method in second and in third place. -/
inductive Deficient : Tree → Prop
  | missing {es : List (Option String × Tree)} {f : Field} (hf : f = .className ∨ f = .method)
      (h : some (record.name f) ∉ es.map Prod.fst) : Deficient (.table es)
  | repeated {before middle after : List (Option String × Tree)} {f : Field} {x y : Tree} :
      Deficient (.table (before ++ (some (record.name f), x) ::
        (middle ++ (some (record.name f), y) :: after)))
  | short {items : List Tree} (h : items.length < 3) : Deficient (.array items)

/-- No test is read from a tree that is deficient. -/
theorem ofTree_of_deficient (h : Deficient t) (c : TestCase) : ofTree manner t ≠ .ok c := by
  rw [ne_eq, ofTree_eq_ok_iff]
  rintro ⟨fields, hfields, hheld⟩
  cases h with
  | @missing es f hf h =>
    obtain ⟨q, hq, rfl⟩ := Record.record_table_eq_ok_iff.1 hfields
    have hnone : q f = none := Record.addEntries_keyed_of_absent field?_name hq h
    have hsome := hheld f
    rcases hf with rfl | rfl <;> simp [hnone, absent] at hsome
  | repeated =>
    obtain ⟨q, hq, -⟩ := Record.record_table_eq_ok_iff.1 hfields
    exact Record.addEntries_keyed_repeated field?_name hq
  | @short items h =>
    obtain ⟨q, hq, hfields⟩ := bind_eq_ok_iff.1 hfields
    have hmethod : .method ∉ record.fields.take items.length := by
      interval_cases items.length <;> decide
    have hnone : q .method = none := Record.addItems_of_absent hq hmethod
    split_ifs at hfields
    cases hfields
    have hsome := hheld .method
    simp [hnone, absent] at hsome

end TestCase

/-! ## Test lists -/

namespace TestList

/-- A tree that says the same of a field as nothing. -/
def IsDefault (_ : Field) (x : Tree) : Prop := x = .array []

/-- A change of a test list, or of one of its tests. -/
def Variant : Tree → Tree → Prop :=
  record.Variant IsDefault fun _ => Tree.ItemVariant TestCase.Variant

theorem field?_name (f : Field) : record.field? (record.name f) = some f := by cases f; rfl

theorem ofTree_eq_ok_iff {l : TestList} :
    ofTree t = .ok l ↔
      ∃ fields, t.record record (Manner.streamed.reading readField) = .ok fields ∧
        ∀ f, (fields.values f).or (some []) = some l.tests := by
  simp only [ofTree, bind_eq_ok_iff, pure_eq_ok_iff]
  refine exists_congr fun fields => and_congr_right fun _ => ?_
  constructor
  · rintro rfl f
    exact Record.optional_eq_iff_or.1 rfl
  · intro h
    rw [Record.optional_eq_iff_or.2 (h .tests)]

theorem Variant.spelled (h : Variant t t') (ht : t.Spelled) : t'.Spelled := by
  refine Record.Variant.spelled h ?_ (fun _ _ _ hx => hx.spelled fun _ _ => ?_) ht
  · rintro f x rfl
    exact ⟨_, Json.spells_emptyArray⟩
  · exact TestCase.Variant.spelled

theorem ofTree_variant {l : TestList} (h : Variant t t') (ht : ofTree t = .ok l) :
    ofTree t' = .ok l := by
  rw [ofTree_eq_ok_iff] at ht ⊢
  refine Record.Variant.exists_record field?_name (fun _ _ _ hx => hx.skip_eq) ?_ ?_ h ht
  · rintro f x rfl
    exact ⟨[], rfl, rfl⟩
  · intro f x x' hx ts hts
    exact hx.each (fun _ _ _ => TestCase.ofTree_variant) hts

/-- However often a test list is changed, it has a text. -/
theorem spelled_of_variants (h : Relation.ReflTransGen Variant t t') (ht : t.Spelled) :
    t'.Spelled := by
  induction h with
  | refl => exact ht
  | tail _ hstep ih => exact hstep.spelled ih

/-- However often a test list is changed, the same tests are read. -/
theorem ofTree_variants {l : TestList} (h : Relation.ReflTransGen Variant t t')
    (ht : ofTree t = .ok l) : ofTree t' = .ok l := by
  induction h with
  | refl => exact ht
  | tail _ hstep ih => exact ofTree_variant hstep ih

/-- The test list has the second tree in the place of a test. -/
inductive Lists : Tree → Tree → Prop
  | table {es : List (Option String × Tree)} {items : List Tree} {x : Tree}
      (hitems : (some "tests", .array items) ∈ es) (hx : x ∈ items) : Lists (.table es) x
  | array {items rest : List Tree} {x : Tree} (hx : x ∈ items) :
      Lists (.array (.array items :: rest)) x

/-- If a test list is read, a test is read from each tree in the place of a test. -/
theorem exists_of_lists {l : TestList} (h : ofTree t = .ok l) (hx : Lists t x) :
    ∃ c ∈ l.tests, TestCase.ofTree .streamed x = .ok c := by
  obtain ⟨fields, hfields, hheld⟩ := ofTree_eq_ok_iff.1 h
  have hlist {items : List Tree} {tests : List TestCase}
      (htests : readField .tests (.array items) = .ok tests)
      (hvalue : fields.values .tests = some tests) (hx : x ∈ items) :
      ∃ c ∈ l.tests, TestCase.ofTree .streamed x = .ok c := by
    have hsome := hheld .tests
    rw [hvalue] at hsome
    cases hsome
    exact (Paired.of_forall₂ (Tree.each_eq_ok_iff.1 htests)).exists_right hx
  cases hx with
  | @table es items _ hitems hx =>
    obtain ⟨q, hq, rfl⟩ := Record.record_table_eq_ok_iff.1 hfields
    have hmem : (.ok "tests", .array items) ∈ Record.keyed es :=
      List.mem_map.2 ⟨_, hitems, rfl⟩
    obtain ⟨-, tests, htests, hvalue⟩ := Record.exists_of_mem hq hmem (field?_name .tests)
    exact hlist htests hvalue hx
  | @array items rest _ hx =>
    obtain ⟨q, hq, hfields⟩ := bind_eq_ok_iff.1 hfields
    obtain ⟨tests, htests, hq⟩ := bind_eq_ok_iff.1 hq
    split_ifs at hfields
    cases hfields
    cases hq
    exact hlist htests rfl hx

end TestList

/-! ## Reading tolerantly -/

/-- **Test lists are read tolerantly.** A text from which a test list is read is JSON and stands for
one tree. A variant of this tree, with any number of changes, has a text, and the same list is read
from each of its texts. No list is read from a text with a deficient tree in the place of a test. -/
theorem TestList.tolerant (text : String) :
    (∀ l, TestList.ofString text = .ok l →
      (∃! t, SpellsDocument text t) ∧
        ∀ t t', SpellsDocument text t → Relation.ReflTransGen Variant t t' →
          (∃ text', SpellsDocument text' t') ∧
            ∀ text', SpellsDocument text' t' → TestList.ofString text' = .ok l) ∧
      ∀ t x, SpellsDocument text t → Lists t x → TestCase.Deficient x →
        ∀ l, TestList.ofString text ≠ .ok l := by
  have hread {text : String} {t : Tree} (ht : SpellsDocument text t) (l : TestList) :
      TestList.ofString text = .ok l ↔ ofTree t = .ok l := by
    rw [ofString, Document.read_eq_ok_iff, ht.ofString_eq, and_iff_left rfl]
  constructor
  · refine fun l hl => ⟨?_, fun t t' ht hvariants => ⟨?_, fun text' ht' => ?_⟩⟩
    · obtain ⟨-, hcomplete⟩ := Document.read_eq_ok_iff.1 hl
      have hroot : SpellsDocument text (Document.ofString text).root := by
        rw [spellsDocument_iff, ← hcomplete]
      refine ⟨_, hroot, fun t ht => ?_⟩
      rw [ht.ofString_eq]
    · obtain ⟨i, -, -, htree⟩ := ht
      exact (spelled_of_variants hvariants ⟨_, htree⟩).exists_document
    · rw [hread ht']
      exact ofTree_variants hvariants ((hread ht l).1 hl)
  · intro t x ht hx hdeficient l hl
    obtain ⟨c, -, hc⟩ := exists_of_lists ((hread ht l).1 hl) hx
    exact TestCase.ofTree_of_deficient hdeficient c hc

namespace Sample

/-- A test list with one test, which has an annotation. -/
def slowList : TestList := ⟨[⟨"", "FooTest", "a", [⟨"Slow", none⟩]⟩]⟩

/-- A value that no field holds, with the key of a field inside. -/
def nestedValue : Value := .array [.array [.table [("name", .string "x")]]]

/-- The same list: the annotation has a member that is not known, and null for its value; the test
has no package, and the method in front; and the list has a member that is not known. -/
def slowValue : Value :=
  .table [("version", .int 2), ("tests", .array [.table
    [("method", .string "a"), ("class-name", .string "FooTest"), ("annotations", .array [.table
      [("id", nestedValue), ("name", .string "Slow"), ("value", .null)]])]])]

theorem exact_nestedValue : nestedValue.Exact := by
  refine .array (List.forall_mem_singleton.2 (.array (List.forall_mem_singleton.2 ?_)))
  exact .table (List.forall_mem_singleton.2 (.string _))

theorem exact_slowValue : slowValue.Exact := by
  have hitem : (Value.table
      [("id", nestedValue), ("name", .string "Slow"), ("value", .null)]).Exact := by
    refine .table ?_
    simp only [List.forall_mem_cons]
    exact ⟨exact_nestedValue, .string _, .null, List.forall_mem_nil _⟩
  have htest : (Value.table [("method", .string "a"), ("class-name", .string "FooTest"),
      ("annotations", .array [.table
        [("id", nestedValue), ("name", .string "Slow"), ("value", .null)]])]).Exact := by
    refine .table ?_
    simp only [List.forall_mem_cons]
    exact ⟨.string _, .string _, .array (List.forall_mem_singleton.2 hitem),
      List.forall_mem_nil _⟩
  refine .table ?_
  simp only [List.forall_mem_cons]
  exact ⟨.int (by decide) (by decide), .array (List.forall_mem_singleton.2 htest),
    List.forall_mem_nil _⟩

/-- A change of the test is one of the list. -/
theorem variant_slowList {c c' : Tree} (h : TestCase.Variant c c') :
    TestList.Variant (.table [(some "tests", .array [c])]) (.table [(some "tests", .array [c'])]) :=
  Record.Variant.entry (r := TestList.record) [] [] .tests (Tree.ItemVariant.item [] [] h)

theorem variants_slowValue :
    Relation.ReflTransGen TestList.Variant (Tree.ofValue slowList.toValue)
      (Tree.ofValue slowValue) := by
  let name : Option String × Tree := (some "name", .string "Slow")
  let value : Option String × Tree := (some "value", .null)
  let id : Option String × Tree := (some "id", Tree.ofValue nestedValue)
  let names : List (Option String × Tree) :=
    [(some "package", .string ""), (some "class-name", .string "FooTest"),
      (some "method", .string "a")]
  have hvalue : Annotation.Variant (.table [name]) (.table [name, value]) :=
    Record.Variant.fillIn (r := Annotation.record) [name] [] .value ⟨rfl, rfl⟩ (by decide)
  have hid : Annotation.Variant (.table [name, value]) (.table [id, name, value]) :=
    Record.Variant.insert (r := Annotation.record) [] [name, value] (by decide)
      (Json.spells_compact exact_nestedValue)
  have hitem {a a' : Tree} (h : Annotation.Variant a a') :
      TestCase.Variant (.table (names ++ [(some "annotations", .array [a])]))
        (.table (names ++ [(some "annotations", .array [a'])])) :=
    Record.Variant.entry (r := TestCase.record) names [] .annotations
      ⟨rfl, Tree.ItemVariant.item [] [] h⟩
  have hpackage (entries : List (Option String × Tree)) :
      TestCase.Variant (.table ((some "package", .string "") :: entries)) (.table entries) :=
    Record.Variant.leaveOut (r := TestCase.record) [] entries .package (.inl ⟨rfl, rfl⟩)
  have hmethod (e e' : Option String × Tree) (entries : List (Option String × Tree)) :
      TestCase.Variant (.table (e :: e' :: entries)) (.table (e' :: e :: entries)) :=
    .permute (.swap e' e entries)
  have hversion (entries : List (Option String × Tree)) :
      TestList.Variant (.table entries) (.table ((some "version", .number (.int 2)) :: entries)) :=
    Record.Variant.insert (r := TestList.record) [] entries (by decide)
      (Json.spells_intText (by decide) (by decide))
  exact .head (variant_slowList (hitem hvalue)) <|
    .head (variant_slowList (hitem hid)) <|
    .head (variant_slowList (hpackage _)) <|
    .head (variant_slowList (hmethod _ _ _)) <|
    .single (hversion _)

/-- A test list whose only test has no method. -/
def namelessValue : Value :=
  .table [("tests", .array [.table [("class-name", .string "FooTest")]])]

theorem exact_namelessValue : namelessValue.Exact := by
  refine .table (List.forall_mem_singleton.2 (.array (List.forall_mem_singleton.2 ?_)))
  exact .table (List.forall_mem_singleton.2 (.string _))

end Sample

/-- A test list is read from its own text and from that of a variant. No list is read from a text
with a test without a method. -/
theorem TestList.tolerant_sample :
    TestList.ofString (Json.write .compact Sample.slowList.toValue) = .ok Sample.slowList ∧
      Relation.ReflTransGen TestList.Variant (Tree.ofValue Sample.slowList.toValue)
        (Tree.ofValue Sample.slowValue) ∧
      TestList.ofString (Json.write .pretty Sample.slowValue) = .ok Sample.slowList ∧
      ∀ l, TestList.ofString (Json.write .compact Sample.namelessValue) ≠ .ok l := by
  have hspells (layout : Json.Layout) {v : Value} (hv : v.Exact) :
      SpellsDocument (Json.write layout v) (Tree.ofValue v) :=
    spellsDocument_iff.2 (Json.denotes_write layout hv)
  have hlist := Sample.slowList.ofString_write .compact
  have hlists : TestList.Lists (Tree.ofValue Sample.namelessValue)
      (.table [(some "class-name", .string "FooTest")]) :=
    .table List.mem_cons_self List.mem_cons_self
  obtain ⟨-, hvariant⟩ := (TestList.tolerant _).1 _ hlist
  obtain ⟨-, hsame⟩ :=
    hvariant _ _ (hspells .compact Sample.slowList.exact_toValue) Sample.variants_slowValue
  exact ⟨hlist, Sample.variants_slowValue, hsame _ (hspells .pretty Sample.exact_slowValue),
    (TestList.tolerant _).2 _ _ (hspells .compact Sample.exact_namelessValue) hlists
      (.missing (.inr rfl) (by decide))⟩

end TestSelection
