import TestSelection.Proofs.Json.Reading
import TestSelection.Proofs.Rule.Depth
import TestSelection.Proofs.Specification

/-!
# Rules in texts

**Theorem (`Rule.text_round_trip`).** A rule or a specification that was written, in either layout,
is read as what it was, in order or not. The only condition is on its depth, and what was read from
a text meets it. So writing what was read from a text is a normal form of the text: reading it and
writing it once more changes nothing.

Both halves are put together from facts about the three steps of a reader. From text to tree, a
value comes back because it is exact (`Json.Document.read_write`). From tree to value, it comes back
if there is room for it, and what comes out was not too deep for the room. From value to rule, a
rule comes back (`Rule.ofValue_toValue`), and is not deeper than the value
(`Rule.depth_le_of_ofValue`).
-/

namespace TestSelection

open Json (Document Fault Layout Tree)

/-! ## Rules -/

namespace Rule

variable {room : Nat} {r : Rule} {text : String}

theorem ofTree_ofValue (h : r.toValue.depth ≤ room) :
    ofTree room (Tree.ofValue r.toValue) = .ok r := by
  have hvalue : (Tree.ofValue r.toValue).toTagged room title "type" RuleKind.ofName =
      .ok r.toValue := by
    rw [toValue_eq] at h ⊢
    exact Tree.toTagged_ofValue r.kind.ofName_name (fun e he => ne_type_of_mem_entries he) h
  rw [ofTree, bind_eq_ok_iff]
  exact ⟨r.toValue, hvalue, mapError_eq_ok_iff.2 (ofValue_toValue _ r)⟩

theorem depth_le_of_ofTree {t : Tree} (ht : t.Plain) (h : ofTree room t = .ok r) :
    r.toValue.depth ≤ room := by
  obtain ⟨v, hv, h⟩ := bind_eq_ok_iff.1 h
  exact (depth_le_of_ofValue (mapError_eq_ok_iff.1 h)).trans (Tree.depth_le_of_toTagged ht hv)

theorem ofString_write (layout : Layout) (h : r.toValue.depth ≤ Json.depthLimit) :
    ofString (Json.write layout r.toValue) = .ok r :=
  Document.read_write layout r.exact_toValue (ofTree_ofValue h)

theorem depth_le_of_ofString (h : ofString text = .ok r) : r.toValue.depth ≤ Json.depthLimit :=
  depth_le_of_ofTree (Document.plain_ofString text) (Document.read_eq_ok_iff.1 h).1

end Rule

/-! ## Specifications -/

namespace Specification

variable {s : Specification} {text : String}

/-- What is written for a list of rules. -/
def heldValue (s : Specification) (list : RuleList) : Value :=
  .array ((s.held list).map Rule.toValue)

theorem toValue_eq (s : Specification) :
    s.toValue = .table ([.allowlist, .blocklist].map fun l => (record.name l, s.heldValue l)) := by
  rw [toValue, Rule.toValues_eq_map, Rule.toValues_eq_map]
  rfl

theorem field?_name (l : RuleList) : record.field? (record.name l) = some l := by
  cases l <;> rfl

theorem exact_toValue (s : Specification) : s.toValue.Exact := by
  rw [toValue_eq]
  exact .table (List.forall_mem_map.2 fun l _ =>
    .array (List.forall_mem_map.2 fun r _ => r.exact_toValue))

theorem mem_lists (l : RuleList) : l ∈ [RuleList.allowlist, .blocklist] := by
  cases l <;> decide

/-- A specification is two levels deeper than its rules. -/
theorem depth_toValue_le_iff {n : Nat} :
    s.toValue.depth ≤ n + depth ↔ ∀ l, ∀ r ∈ s.held l, r.toValue.depth ≤ n := by
  rw [toValue_eq]
  constructor
  · intro h l r hr
    have hlist : (s.heldValue l).depth ≤ n + 1 :=
      Value.depth_table_le_iff.1 h _ (List.mem_map_of_mem (mem_lists l))
    exact Value.depth_array_le_iff.1 hlist _ (List.mem_map_of_mem hr)
  · intro h
    exact Value.depth_table_le_iff.2 (List.forall_mem_map.2 fun l _ =>
      Value.depth_array_le_iff.2 (List.forall_mem_map.2 (h l)))

theorem ofTree_ofValue (h : s.toValue.depth ≤ Json.depthLimit) :
    ofTree (Tree.ofValue s.toValue) = .ok s := by
  have hrules : ∀ l, ∀ r ∈ s.held l, r.toValue.depth ≤ Json.depthLimit - depth :=
    depth_toValue_le_iff.1 h
  have hread (l : RuleList) : readField l (Tree.ofValue (s.heldValue l)) = .ok (s.held l) :=
    Tree.each_ofValue fun r hr => Rule.ofTree_ofValue (hrules l r hr)
  rw [toValue_eq, ofTree, Tree.record_written (by decide) (fun l _ => field?_name l)
    fun l _ => hread l]
  rfl

theorem depth_le_of_ofTree {t : Tree} (ht : t.Plain) (h : ofTree t = .ok s) :
    s.toValue.depth ≤ Json.depthLimit := by
  obtain ⟨fields, hfields, h⟩ := bind_eq_ok_iff.1 h
  cases h
  have hread : ∀ t : Tree, t.Plain → ∀ l rules, readField l t = .ok rules →
      ∀ r ∈ rules, r.toValue.depth ≤ Json.depthLimit - depth := by
    intro t ht l rules h r hr
    obtain ⟨items, hitems, h⟩ := bind_eq_ok_iff.1 h
    rw [Tree.asSequence_eq_ok_iff] at hitems
    subst hitems
    obtain ⟨t, htitems, htr⟩ := (Paired.of_forall₂ (Tree.each_eq_ok_iff.1 h)).exists_left hr
    cases ht with
    | array hplain => exact Rule.depth_le_of_ofTree (hplain t htitems) htr
  have hvalues := Tree.forall_record ht hread hfields
  refine depth_toValue_le_iff.2 fun l => ?_
  cases l with
  | allowlist => exact Record.forall_optional hvalues (List.forall_mem_nil _)
  | blocklist => exact Record.forall_optional hvalues (List.forall_mem_nil _)

theorem ofString_write (layout : Layout) (h : s.toValue.depth ≤ Json.depthLimit) :
    ofString (Json.write layout s.toValue) = .ok s :=
  Document.read_write layout s.exact_toValue (ofTree_ofValue h)

theorem depth_le_of_ofString (h : ofString text = .ok s) : s.toValue.depth ≤ Json.depthLimit :=
  depth_le_of_ofTree (Document.plain_ofString text) (Document.read_eq_ok_iff.1 h).1

end Specification

/-! ## Round trips -/

/-- If what was read is read again after it was written, then writing it gives a text that reading
and writing leave as it is. -/
theorem normal_of_read_write {ε α : Type} (read : String → Except ε α) (write : α → String)
    (h : ∀ {text x}, read text = .ok x → read (write x) = .ok x) {text normal : String}
    (hnormal : (read text).map write = .ok normal) : (read normal).map write = .ok normal := by
  cases hx : read text with
  | error fault =>
    rw [hx] at hnormal
    cases hnormal
  | ok x =>
    rw [hx] at hnormal
    cases hnormal
    rw [h hx]
    rfl

namespace Sample

/-- A pattern that can be used. -/
def pattern : Regex := (Regex.ofString "test").toOption.get (by decide +kernel)

/-- A rule that is not in order: one of its parts has no source, another has two, and the last one
asks for a bucket that does not exist. -/
def unchecked : Rule :=
  .composition .subtract
    [.simple .method .none,
      .simple .package ⟨some pattern, none, some ⟨"lists/\"größe\".txt"⟩⟩,
      .simple .className (.ofValues ["", "A\tB"]),
      .annotationData pattern pattern,
      .fragmentation (-1) 0]

def uncheckedList : Specification := ⟨[unchecked], []⟩

/-- A text with white space, a name in capital letters, an escape and a null. -/
def looseText : String :=
  "\x7b\"op\": \"UNION\", \"type\": \"composition\",\n \"filters\": [\x7b\"type\": \"method\", " ++
    "\"values\": [\"\\u0041\"], \"file\": null\x7d]\x7d\n"

/-- What is written for the rule in that text. -/
def normalText : String :=
  "\x7b\"type\":\"composition\",\"filters\":[\x7b\"type\":\"method\",\"values\":[\"A\"]\x7d]," ++
    "\"op\":\"union\"\x7d"

theorem normal_looseText :
    (Rule.ofString looseText).map (fun r => Json.write .compact r.toValue) = .ok normalText :=
  eq_ok_of_toOption_eq_some (by decide +kernel)

end Sample

namespace Rule

/-- What was written is read as what it was, unless it is too deep. What was read from a text is not
too deep, so writing it gives a text that reading and writing leave as it is. -/
theorem text_round_trip (layout : Layout) :
    (∀ r : Rule, r.toValue.depth ≤ Json.depthLimit →
      ofString (Json.write layout r.toValue) = .ok r) ∧
    (∀ s : Specification, s.toValue.depth ≤ Json.depthLimit →
      Specification.ofString (Json.write layout s.toValue) = .ok s) ∧
    (∀ text normal,
      (ofString text).map (fun r => Json.write layout r.toValue) = .ok normal →
        (ofString normal).map (fun r => Json.write layout r.toValue) = .ok normal) ∧
    ∀ text normal,
      (Specification.ofString text).map (fun s => Json.write layout s.toValue) = .ok normal →
        (Specification.ofString normal).map (fun s => Json.write layout s.toValue) =
          .ok normal := by
  have hrule {text : String} {r : Rule} (h : ofString text = .ok r) :
      ofString (Json.write layout r.toValue) = .ok r :=
    ofString_write layout (depth_le_of_ofString h)
  have hspec {text : String} {s : Specification} (h : Specification.ofString text = .ok s) :
      Specification.ofString (Json.write layout s.toValue) = .ok s :=
    Specification.ofString_write layout (Specification.depth_le_of_ofString h)
  exact ⟨fun r => ofString_write layout, fun s => Specification.ofString_write layout,
    fun _ _ => normal_of_read_write ofString (fun r => Json.write layout r.toValue) hrule,
    fun _ _ => normal_of_read_write Specification.ofString
      (fun s => Json.write layout s.toValue) hspec⟩

theorem text_round_trip_sample :
    ofString (Json.write .pretty Sample.unchecked.toValue) = .ok Sample.unchecked ∧
      Specification.ofString (Json.write .compact Sample.uncheckedList.toValue) =
        .ok Sample.uncheckedList ∧
      (ofString Sample.looseText).map (fun r => Json.write .compact r.toValue) =
        .ok Sample.normalText ∧
      (ofString Sample.normalText).map (fun r => Json.write .compact r.toValue) =
        .ok Sample.normalText := by
  have hrule : Sample.unchecked.toValue.depth ≤ Json.depthLimit := by decide +kernel
  have hspec : Sample.uncheckedList.toValue.depth ≤ Json.depthLimit := by decide +kernel
  exact ⟨(text_round_trip .pretty).1 _ hrule, (text_round_trip .compact).2.1 _ hspec,
    Sample.normal_looseText, (text_round_trip .compact).2.2.1 _ _ Sample.normal_looseText⟩

end Rule

end TestSelection
