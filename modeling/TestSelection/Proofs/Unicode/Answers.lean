import TestSelection.Proofs.Unicode.CodeSet
import TestSelection.Unicode.CaseFolding
import TestSelection.Unicode.Query

/-!
# Answers are tidy sets

Every set of characters that can be asked for by name is tidy, and stays so when it is closed under
change of case. Tables are read through `CodeSet.ofRanges`, which puts any ranges in order; the
lists that are written out are checked.
-/

namespace TestSelection.Unicode

variable {s : CodeSet} {name : String}

instance CodeSet.decidableTidy (s : CodeSet) : Decidable s.Tidy :=
  decidable_of_iff ((∀ r ∈ s.ranges, r.1 ≤ r.2) ∧ s.ranges.Pairwise (fun a b => a.2 < b.1) ∧
      ∀ r ∈ s.ranges, r.1.isValidChar ∧ r.2.isValidChar)
    ⟨fun h => ⟨⟨h.1, h.2.1⟩, h.2.2⟩, fun h => ⟨h.ascend.proper, h.ascend.apart, h.bounded⟩⟩

/-! ## Tables -/

namespace Table

theorem tidy_set (lines : List String) : (set lines).Tidy := CodeSet.tidy_ofRanges _

theorem tidy_select (table : List (Nat × Nat × Nat)) (test : Nat → Bool) :
    (select table test).Tidy := CodeSet.tidy_ofRanges _

end Table

theorem GeneralCategory.tidy_ofName? (h : ofName? name = some s) : s.Tidy := by
  unfold ofName? at h
  split at h
  · cases h
    exact Table.tidy_select _ _
  · split_ifs at h
    obtain ⟨entry, -, rfl⟩ := Option.map_eq_some_iff.1 h
    exact Table.tidy_select _ _

theorem Break.Partition.tidy_ofName? {p : Partition} (h : p.ofName? name = some s) : s.Tidy := by
  unfold ofName? at h
  split_ifs at h
  obtain ⟨index, -, rfl⟩ := Option.map_eq_some_iff.1 h
  exact Table.tidy_select _ _

theorem Age.tidy_upTo? (h : upTo? name = some s) : s.Tidy := by
  unfold upTo? at h
  split_ifs at h
  obtain ⟨index, -, rfl⟩ := Option.map_eq_some_iff.1 h
  exact Table.tidy_select _ _

theorem Script.tidy_ofName? (h : ofName? name = some s) : s.Tidy := by
  obtain ⟨index, -, rfl⟩ := Option.map_eq_some_iff.1 h
  exact Table.tidy_select _ _

theorem Script.tidy_extensionOfName? (h : extensionOfName? name = some s) : s.Tidy := by
  obtain ⟨index, -, rfl⟩ := Option.map_eq_some_iff.1 h
  exact CodeSet.tidy_union
    (CodeSet.tidy_diff (Table.tidy_select _ _) (CodeSet.tidy_ofRanges _)) (Table.tidy_select _ _)

/-! ## Properties -/

namespace Property

open CodeSet Listed

theorem tidy_category (codes : List String) : (category codes).Tidy := by
  unfold category GeneralCategory.ofCodes
  exact Table.tidy_select _ _

theorem tidy_lowercase : lowercase.Tidy := tidy_union (tidy_category _) (Table.tidy_set _)

theorem tidy_uppercase : uppercase.Tidy := tidy_union (tidy_category _) (by decide)

theorem tidy_graphemeExtend : graphemeExtend.Tidy :=
  tidy_union (tidy_category _) (Table.tidy_set _)

theorem tidy_pattern : pattern.Tidy := tidy_union (Table.tidy_set _) (by decide)

theorem tidy_idStart : idStart.Tidy := tidy_diff (tidy_unions _) tidy_pattern

theorem tidy_idContinue : idContinue.Tidy := tidy_diff (tidy_unions _) tidy_pattern

theorem tidy_xidStart : xidStart.Tidy := tidy_diff tidy_idStart (Table.tidy_set _)

theorem tidy_xidContinue : xidContinue.Tidy := tidy_diff tidy_idContinue (by decide)

theorem tidy_math : math.Tidy := tidy_union (tidy_category _) (Table.tidy_set _)

theorem tidy_graphemeBase : graphemeBase.Tidy :=
  tidy_compl (tidy_union (tidy_category _) tidy_graphemeExtend)

theorem tidy_defaultIgnorable : defaultIgnorable.Tidy :=
  tidy_diff (tidy_unions _) (tidy_unions _)

theorem tidy_word : word.Tidy := tidy_unions _

theorem tidy_decimal : decimal.Tidy := tidy_category _

/-- Each property is a table, a list that can be checked, or put together from such sets. -/
theorem tidy_of_mem_byName : ∀ entry ∈ byName, entry.2.Tidy := by
  simp only [byName, List.forall_mem_cons, alphabetic, cased, caseIgnorable, tidy_unions,
    tidy_lowercase, tidy_uppercase, tidy_xidStart, tidy_xidContinue, tidy_math,
    tidy_graphemeExtend, tidy_graphemeBase, tidy_defaultIgnorable, tidy_idStart, tidy_idContinue,
    bidiMirrored, changesWhenCasefolded, changesWhenCasemapped, changesWhenLowercased,
    changesWhenTitlecased, changesWhenUppercased, dash, diacritic, emoji, emojiModifierBase,
    emojiPresentation, extendedPictographic, extender, graphemeLink, idCompatMathContinue,
    idCompatMathStart, ideographic, noncharacterCodePoint, otherAlphabetic, otherGraphemeExtend,
    otherLowercase, otherMath, patternSyntax, quotationMark, sentenceTerminal, softDotted,
    terminalPunctuation, unifiedIdeograph, Table.tidy_set, true_and,
    List.not_mem_nil, false_imp_iff, implies_true, and_true]
  and_intros
  all_goals decide

theorem tidy_ofName? (h : ofName? name = some s) : s.Tidy := by
  rw [ofName?, List.lookup_eq_some_iff] at h
  obtain ⟨before, after, hsplit, -⟩ := h
  exact tidy_of_mem_byName (name, s) (by simp [hsplit])

end Property

/-! ## Queries -/

namespace Query

theorem found_eq_ok_iff {set : Option CodeSet} : categorySet.found set = .ok s ↔ set = some s := by
  cases set <;> simp [categorySet.found]

theorem tidy_categorySet (h : categorySet name = .ok s) : s.Tidy := by
  unfold categorySet at h
  split_ifs at h
  · cases h
    exact CodeSet.tidy_all
  · cases h
    decide
  · cases h
    exact CodeSet.tidy_compl (Property.tidy_category _)
  · exact GeneralCategory.tidy_ofName? (found_eq_ok_iff.1 h)

theorem tidy_named (h : named name = .ok s) : s.Tidy := by
  unfold named at h
  extract_lets name' isProperty at h
  clear_value name' isProperty
  split at h
  · split at h
    · next hset =>
      cases h
      exact Property.tidy_ofName? hset
    · cases h
  · split at h
    · exact tidy_categorySet h
    · split at h
      · exact Script.tidy_ofName? (found_eq_ok_iff.1 h)
      · cases h

theorem tidy_withValue {property value : String} (h : withValue property value = .ok s) :
    s.Tidy := by
  have hchoose {long : Option String} {set : String → Option CodeSet}
      (hset : ∀ name s, set name = some s → s.Tidy)
      (h : categorySet.found (long.bind set) = .ok s) : s.Tidy := by
    obtain ⟨name, -, hname⟩ := Option.bind_eq_some_iff.1 (found_eq_ok_iff.1 h)
    exact hset name s hname
  unfold withValue at h
  extract_lets value' choose at h
  clear_value value'
  split at h
  · cases h
  · split at h
    · exact tidy_categorySet h
    · cases h
  · exact hchoose (fun _ _ => Script.tidy_ofName?) h
  · exact hchoose (fun _ _ => Script.tidy_extensionOfName?) h
  · exact hchoose (fun _ _ => Age.tidy_upTo?) h
  · exact hchoose (fun _ _ => Break.Partition.tidy_ofName?) h
  · exact hchoose (fun _ _ => Break.Partition.tidy_ofName?) h
  · exact hchoose (fun _ _ => Break.Partition.tidy_ofName?) h
  · cases h

end Query

theorem CaseFolding.tidy_close (hs : s.Tidy) : (close s).Tidy :=
  CodeSet.tidy_union hs (CodeSet.tidy_ofRanges _)

end TestSelection.Unicode
