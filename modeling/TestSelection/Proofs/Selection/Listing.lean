import TestSelection.Proofs.Filter.Keep
import TestSelection.Proofs.Filter.ValuesFile
import TestSelection.Proofs.Output.Sink

/-!
# Plain reports as files of values

The plain report has a line for each selected test, and on it the qualified name and nothing else.
So it lays out the list of these names, and a rule can have the report for its file of values. Names
with a line feed, or with white space at their ends, are the only ones that do not come back.

**Theorem (`Selection.report_values`).** A rule for qualified names with the report as its file
keeps, of any list, the tests that have the qualified name of a selected test.

A report writes a name in pieces, and a filter puts it together. Both give the same text
(`TestCase.join_namePieces`), and with it the lines of the report are those of a layout of values
(`Selection.text_lines`).
-/

namespace TestSelection

/-! ## Lines of the report -/

/-- The pieces of a name without styles make up the qualified name. -/
theorem TestCase.join_namePieces (t : TestCase) :
    String.join (t.namePieces .plain) = t.qualifiedName := by
  have hplain (text : String) : Style.plain.apply text = text := rfl
  refine String.toList_inj.1 ?_
  simp only [namePieces, ReportStyles.plain, hplain, qualifiedName, qualifiedClass]
  split_ifs <;> simp

/-- A qualified name can stand on a line unless it has a line feed, or white space at its ends. It
is never empty. -/
theorem TestCase.isLineValue_qualifiedName {t : TestCase}
    (hnewline : '\n' ∉ t.qualifiedName.toList) (htrimmed : Text.Trimmed t.qualifiedName.toList) :
    IsLineValue t.qualifiedName := by
  refine ⟨fun hempty => ?_, htrimmed, hnewline⟩
  have hmark : '#' ∈ t.qualifiedName.toList := by simp [qualifiedName]
  simp [hempty] at hmark

namespace Selection

variable {s : Selection}

/-- The lines of the plain report: one for each selected test, all of them ended. -/
def listing (s : Selection) : ValueLayout :=
  ⟨s.selected.map fun t => (⟨[], some t.qualifiedName, []⟩, .newline), ⟨[], none, []⟩⟩

/-- A report that is not verbose has a line for each selected test, and none for the others. -/
theorem flatMap_linePieces (styles : ReportStyles) (s : Selection) :
    s.verdicts.flatMap (linePieces styles false) =
      s.selected.flatMap fun t => t.namePieces styles ++ ["\n"] := by
  obtain ⟨verdicts⟩ := s
  dsimp only
  induction verdicts with
  | nil => rfl
  | cons v rest ih =>
    obtain ⟨t, verdict⟩ := v
    rw [List.flatMap_cons, ih]
    cases verdict with
    | selected => simp [linePieces, selected, Verdict.isSelected]
    | skipped reason => rfl

theorem text_lines (s : Selection) : s.text (.lines false) false = s.listing.text := by
  refine String.toList_inj.1 ?_
  have hname (t : TestCase) :
      (t.namePieces .plain).flatMap String.toList = t.qualifiedName.toList := by
    rw [← String.toList_join, t.join_namePieces]
  have hlast : (⟨[], none, []⟩ : ValueLine).text = [] := rfl
  have hpieces : s.pieces (.lines false) false = s.verdicts.flatMap (linePieces .plain false) :=
    List.append_nil _
  rw [text, hpieces, flatMap_linePieces, String.toList_join, List.flatMap_assoc, ValueLayout.text,
    String.toList_ofList, listing, hlast, List.append_nil, List.flatMap_map]
  refine List.flatMap_congr fun t _ => ?_
  rw [List.flatMap_append, hname]
  simp [ValueLine.text, ValueLine.written, LineEnd.mark]

/-- Each name of a selected test is the value of a line, and no other text is. -/
theorem exists_line_iff {name : String} :
    (∃ line ∈ s.listing.lines, line.value = some name) ↔
      ∃ t ∈ s.selected, name = t.qualifiedName := by
  simp [listing, ValueLayout.lines, eq_comm]

theorem fits_listing (h : ∀ t ∈ s.selected, IsLineValue t.qualifiedName) :
    ∀ line ∈ s.listing.lines, line.Fits := by
  intro line hline
  rw [ValueLayout.lines, listing, List.map_map, List.mem_append, List.mem_map,
    List.mem_singleton] at hline
  obtain ⟨t, ht, rfl⟩ | rfl := hline
  · exact ⟨List.forall_mem_nil _, by simpa using h t ht⟩
  · exact ⟨List.forall_mem_nil _, by simp⟩

/-- The values in the plain report are the names of the selected tests. -/
theorem mem_valuesOfText_lines (h : ∀ t ∈ s.selected, IsLineValue t.qualifiedName) {name : String} :
    name ∈ valuesOfText (s.text (.lines false) false) ↔
      ∃ t ∈ s.selected, name = t.qualifiedName := by
  rw [text_lines, ValueLayout.mem_valuesOfText_text (fits_listing h), exists_line_iff]

end Selection

/-! ## The report as a file -/

/-- **A plain report is a file of values.** The report that is not verbose and has no colours is
written as a whole. A rule for qualified names that has it for its file compiles, and keeps of every
list the tests that have the qualified name of a selected test; if no test is selected, it keeps
none. -/
theorem Selection.report_values (s : Selection)
    (h : ∀ t ∈ s.selected, '\n' ∉ t.qualifiedName.toList ∧ Text.Trimmed t.qualifiedName.toList) :
    ∃ sink, s.write (.lines false) false (.ofDevice .endless) = (sink, .ok ()) ∧
      ∀ (cx : Context) (p : Path), cx.access.read (cx.resolve p) = .ok sink.delivered →
        ∃ f, (Rule.simple .qualifiedName (.ofFile p)).compile cx = .ok f ∧
          (∀ tests, f.keep tests =
            tests.filter fun t => ∃ u ∈ s.selected, t.qualifiedName = u.qualifiedName) ∧
          (s.selected = [] → ∀ tests, f.keep tests = []) := by
  refine ⟨_, s.write_endless _ _, fun cx p hread => ?_⟩
  rw [Sink.delivered_endless, List.reverse_reverse] at hread
  have hvalues : ∀ t ∈ s.selected, IsLineValue t.qualifiedName := fun t ht =>
    TestCase.isLineValue_qualifiedName (h t ht).1 (h t ht).2
  have hkeep (tests : List TestCase) :
      (Filter.simple .qualifiedName
          (.values (valuesOfText (s.text (.lines false) false)))).keep tests =
        tests.filter fun t => ∃ u ∈ s.selected, t.qualifiedName = u.qualifiedName := by
    rw [Filter.keep_eq_filter]
    refine List.filter_congr fun t _ => ?_
    rw [Bool.eq_iff_iff, Filter.accepts_values_iff, decide_eq_true_iff]
    simp only [Attribute.valuesIn, List.mem_singleton, exists_eq_left,
      mem_valuesOfText_lines hvalues]
  refine ⟨_, Rule.compile_of_read _ hread, hkeep, fun hnone tests => ?_⟩
  rw [hkeep, hnone]
  simp

namespace Sample

/-- A test with a carriage return and a second mark in the name of its method. -/
def listed : TestCase := .ofNames "" "FooTest" "a\r#b"

def listedSelection : Selection :=
  ⟨[(.ofNames "com.other" "FooTest" "testA", .skipped .blocklisted), (listed, .selected)]⟩

/-- A directory with the plain report of the sample. -/
def listingContext : Context :=
  ⟨(Files.empty.write ⟨"tests.txt"⟩ "FooTest#a\r#b\n".toUTF8.toList).access, none⟩

theorem fits_listed : ∀ t ∈ listedSelection.selected,
    '\n' ∉ t.qualifiedName.toList ∧ Text.Trimmed t.qualifiedName.toList := by
  decide +kernel

end Sample

/-- Of the two tests of a selection, a rule with the report keeps the one that was selected. -/
theorem Selection.report_values_sample :
    (∀ t ∈ Sample.listedSelection.selected,
      '\n' ∉ t.qualifiedName.toList ∧ Text.Trimmed t.qualifiedName.toList) ∧
      ∃ f, (Rule.simple .qualifiedName (.ofFile ⟨"tests.txt"⟩)).compile Sample.listingContext =
          .ok f ∧
        f.keep (Sample.listedSelection.verdicts.map (·.1)) = [Sample.listed] := by
  obtain ⟨sink, hwrite, hkeep⟩ := Selection.report_values Sample.listedSelection Sample.fits_listed
  have hsink : sink = (Sample.listedSelection.write (.lines false) false (.ofDevice .endless)).1 :=
    (congrArg Prod.fst hwrite).symm
  have hread : Sample.listingContext.access.read (Sample.listingContext.resolve ⟨"tests.txt"⟩) =
      .ok sink.delivered := by
    rw [hsink]
    decide +kernel
  obtain ⟨f, hcompile, hf, -⟩ := hkeep Sample.listingContext ⟨"tests.txt"⟩ hread
  exact ⟨Sample.fits_listed, f, hcompile, by rw [hf]; decide +kernel⟩

end TestSelection
