import TestSelection.Proofs.Filter.Meaning
import TestSelection.Proofs.Rule.Failure
import TestSelection.Proofs.Text.Utf8

/-!
# Files of values

What is left of a line without the white space at its ends is a value, if anything is. So it makes
no difference how the values are laid out: whether lines end with a carriage return too, whether the
last line is ended, and where there is white space or a blank line.

**Theorem (`valuesFile_spells`).** The values of a file are the texts that are trimmed, not empty,
and the trimmed form of a piece between line feeds. If a file lays out a list of values, then a
simple rule with the file and one with the list accept the same tests. No file makes a rule accept
an empty attribute.

The layouts are those of `ValueLayout`. That white space and line ends do not matter is one fact
about trimming, `Text.trim_append`: a carriage return before a line feed is white space behind the
value.
-/

namespace TestSelection

/-! ## Values on lines -/

/-- A text that a file can have as a value on one of its lines. -/
def IsLineValue (s : String) : Prop := s ≠ "" ∧ Text.Trimmed s.toList ∧ '\n' ∉ s.toList

/-- The values in a text are the trimmed forms of its pieces between line feeds, except nothing. -/
theorem mem_valuesOfText_iff {text s : String} :
    s ∈ valuesOfText text ↔ s ≠ "" ∧ Text.Trimmed s.toList ∧
      ∃ piece ∈ text.toList.splitOn '\n', s.toList = Text.trim piece := by
  rw [mem_valuesOfText, HoldsLine, Text.pieces_eq_splitOn]
  refine and_congr_right fun _ => ?_
  constructor
  · rintro ⟨piece, hpiece, rfl⟩
    rw [String.toList_ofList]
    exact ⟨Text.trimmed_trim piece, piece, hpiece, rfl⟩
  · rintro ⟨-, piece, hpiece, hs⟩
    exact ⟨piece, hpiece, by rw [← hs, String.ofList_toList]⟩

/-! ## Layouts -/

/-- A line of a file, without its end: white space, then a value unless the line is blank, and white
space again. -/
structure ValueLine where
  before : List Char
  value : Option String
  after : List Char

/-- How a line ends: with a line feed, or with a carriage return before it. -/
inductive LineEnd where
  | newline
  | carriageReturn

/-- What stands before the line feed. -/
def LineEnd.mark : LineEnd → List Char
  | .newline => []
  | .carriageReturn => ['\r']

namespace ValueLine

/-- The value as it stands in the line. -/
def written (line : ValueLine) : List Char := (line.value.map String.toList).getD []

def text (line : ValueLine) : List Char := line.before ++ line.written ++ line.after

/-- There is only white space around the value, and no line feed. -/
def Blank (line : ValueLine) : Prop :=
  ∀ c ∈ line.before ++ line.after, Text.isBlank c = true ∧ c ≠ '\n'

end ValueLine

/-- The lines of a file: those that are ended, and what follows the last line feed. -/
structure ValueLayout where
  ended : List (ValueLine × LineEnd)
  last : ValueLine

namespace ValueLayout

def lines (layout : ValueLayout) : List ValueLine := layout.ended.map (·.1) ++ [layout.last]

def text (layout : ValueLayout) : String :=
  String.ofList ((layout.ended.flatMap fun l => l.1.text ++ l.2.mark ++ ['\n']) ++ layout.last.text)

/-- Each value of a list stands on some line, as often as one likes, and nothing else does. -/
structure Spells (layout : ValueLayout) (vs : List String) : Prop where
  blank : ∀ line ∈ layout.lines, line.Blank
  mem_iff : ∀ v, v ∈ vs ↔ ∃ line ∈ layout.lines, line.value = some v

end ValueLayout

namespace ValueLine

variable {line : ValueLine}

/-- The value of a line, if there is one, can stand on a line. -/
def Fits (line : ValueLine) : Prop := line.Blank ∧ ∀ v ∈ line.value, IsLineValue v

theorem Fits.newline_not_mem (h : line.Fits) : '\n' ∉ line.text := by
  obtain ⟨hblank, hvalue⟩ := h
  have hwritten : '\n' ∉ line.written := by
    unfold written
    cases hv : line.value with
    | none => exact List.not_mem_nil
    | some v => exact (hvalue v hv).2.2
  intro hmem
  rw [text, List.mem_append, List.mem_append, or_right_comm] at hmem
  rcases hmem with hmem | hmem
  · exact (hblank _ (List.mem_append.2 hmem)).2 rfl
  · exact hwritten hmem

/-- Trimming a line, ended or not, leaves its value. -/
theorem Fits.trim_text (h : line.Fits) (mark : List Char)
    (hmark : ∀ c ∈ mark, Text.isBlank c = true) :
    Text.trim (line.text ++ mark) = line.written := by
  obtain ⟨hblank, hvalue⟩ := h
  have hwritten : Text.Trimmed line.written := by
    unfold written
    cases hv : line.value with
    | none => exact ⟨by simp, by simp⟩
    | some v => exact (hvalue v hv).2.1
  rw [text, List.append_assoc]
  refine Text.trim_append (fun c hc => (hblank c (List.mem_append_left _ hc)).1) ?_ hwritten
  refine List.forall_mem_append.2 ⟨fun c hc => (hblank c (List.mem_append_right _ hc)).1, hmark⟩

theorem eq_written_iff {s : String} (hs : s ≠ "") :
    s.toList = line.written ↔ line.value = some s := by
  unfold written
  cases hv : line.value with
  | none => simp [hs]
  | some v => simp [String.toList_inj, eq_comm]

end ValueLine

theorem LineEnd.isBlank_of_mem_mark {e : LineEnd} : ∀ c ∈ e.mark, Text.isBlank c = true := by
  cases e with
  | newline => exact List.forall_mem_nil _
  | carriageReturn =>
    have hreturn : Text.isBlank '\r' = true := by decide +kernel
    exact List.forall_mem_singleton.2 hreturn

theorem LineEnd.newline_not_mem_mark (e : LineEnd) : '\n' ∉ e.mark := by
  cases e <;> decide

namespace ValueLayout

variable {layout : ValueLayout}

/-- A text is cut into its lines, with a carriage return where there was one. -/
theorem splitOn_text (h : ∀ line ∈ layout.lines, line.Fits) :
    layout.text.toList.splitOn '\n' =
      layout.ended.map (fun l => l.1.text ++ l.2.mark) ++ [layout.last.text] := by
  obtain ⟨ended, last⟩ := layout
  rw [text, String.toList_ofList]
  induction ended with
  | nil =>
    exact Text.splitOn_of_not_mem (h last (List.mem_singleton.2 rfl)).newline_not_mem
  | cons l rest ih =>
    obtain ⟨hl, hrest⟩ := List.forall_mem_cons.1 h
    have hline : '\n' ∉ l.1.text ++ l.2.mark :=
      List.not_mem_append hl.newline_not_mem l.2.newline_not_mem_mark
    rw [List.flatMap_cons, List.append_assoc, List.append_assoc, List.singleton_append,
      List.splitOn_append_cons_self, Text.splitOn_of_not_mem hline, ih hrest]
    rfl

/-- The pieces of a text have the values of its lines as their trimmed forms. -/
theorem exists_piece_iff (h : ∀ line ∈ layout.lines, line.Fits) {P : List Char → Prop} :
    (∃ piece ∈ layout.text.toList.splitOn '\n', P (Text.trim piece)) ↔
      ∃ line ∈ layout.lines, P line.written := by
  have hended : ∀ l ∈ layout.ended, Text.trim (l.1.text ++ l.2.mark) = l.1.written := fun l hl =>
    (h l.1 (List.mem_append_left _ (List.mem_map_of_mem hl))).trim_text l.2.mark
      LineEnd.isBlank_of_mem_mark
  have hlast : Text.trim layout.last.text = layout.last.written := by
    have htrim := (h layout.last (by simp [lines])).trim_text [] (List.forall_mem_nil _)
    rwa [List.append_nil] at htrim
  simp only [splitOn_text h, lines, List.mem_append, List.mem_map, List.mem_singleton, or_and_right,
    exists_or, exists_exists_and_eq_and, exists_eq_left, hlast]
  refine or_congr_left (exists_congr fun l => and_congr_right fun hl => ?_)
  rw [hended l hl]

/-- The values in a text are those on its lines. -/
theorem mem_valuesOfText_text (h : ∀ line ∈ layout.lines, line.Fits) {s : String} :
    s ∈ valuesOfText layout.text ↔ ∃ line ∈ layout.lines, line.value = some s := by
  rw [mem_valuesOfText, HoldsLine, Text.pieces_eq_splitOn,
    exists_piece_iff h (P := fun v => s = String.ofList v)]
  constructor
  · rintro ⟨hs, line, hline, rfl⟩
    exact ⟨line, hline, (ValueLine.eq_written_iff hs).1 String.toList_ofList⟩
  · rintro ⟨line, hline, hv⟩
    have hs : s ≠ "" := ((h line hline).2 s hv).1
    refine ⟨hs, line, hline, ?_⟩
    rw [← (ValueLine.eq_written_iff hs).2 hv, String.ofList_toList]

theorem Spells.fits {vs : List String} (h : layout.Spells vs) (hvs : ∀ v ∈ vs, IsLineValue v) :
    ∀ line ∈ layout.lines, line.Fits := fun line hline =>
  ⟨h.blank line hline, fun v hv => hvs v ((h.mem_iff v).2 ⟨line, hline, hv⟩)⟩

end ValueLayout

/-! ## Rules with files -/

/-- Lists with the same values make the same filters, however often and in which order the values
occur. -/
theorem Filter.accepts_values_congr {attr : Attribute} {vs ws : List String}
    (h : ∀ s, s ∈ vs ↔ s ∈ ws) (t : TestCase) :
    (Filter.simple attr (.values vs)).accepts t = (Filter.simple attr (.values ws)).accepts t := by
  rw [Bool.eq_iff_iff, accepts_values_iff, accepts_values_iff]
  exact exists_congr fun s => and_congr_right fun _ => h s

/-- A rule with a file accepts the values in the text of the file. -/
theorem Rule.compile_of_read {cx : Context} {p : Path} {text : String} (attr : Attribute)
    (h : cx.access.read (cx.resolve p) = .ok text.toUTF8.toList) :
    (Rule.simple attr (.ofFile p)).compile cx =
      .ok (.simple attr (.values (valuesOfText text))) :=
  compile_file_iff.2
    ⟨text, Context.readText_eq_ok_iff.2 ⟨_, h, Utf8.decode?_toUTF8 text⟩, rfl⟩

/-- **A file of values is the list that it spells.** The values in a text are the trimmed forms of
its pieces between line feeds, except nothing. A simple rule with a file that lays out a list
accepts the same tests as one with the list. No file makes a rule accept a test of which all values
of the attribute are empty. -/
theorem valuesFile_spells :
    (∀ text s : String, s ∈ valuesOfText text ↔
      s ≠ "" ∧ Text.Trimmed s.toList ∧
        ∃ piece ∈ text.toList.splitOn '\n', s.toList = Text.trim piece) ∧
    (∀ (cx : Context) (p : Path) (text : String) (attr : Attribute),
      cx.access.read (cx.resolve p) = .ok text.toUTF8.toList →
        (Rule.simple attr (.ofFile p)).compile cx =
          .ok (.simple attr (.values (valuesOfText text)))) ∧
    (∀ (cx : Context) (p : Path) (layout : ValueLayout) (vs : List String) (attr : Attribute),
      (∀ v ∈ vs, IsLineValue v) → layout.Spells vs →
      cx.access.read (cx.resolve p) = .ok layout.text.toUTF8.toList →
        ∃ f g, (Rule.simple attr (.ofFile p)).compile cx = .ok f ∧
          (Rule.simple attr (.ofValues vs)).compile cx = .ok g ∧
          ∀ t, f.accepts t = g.accepts t) ∧
    ∀ (cx : Context) (p : Path) (attr : Attribute) (f : Filter) (t : TestCase),
      (Rule.simple attr (.ofFile p)).compile cx = .ok f → (∀ s ∈ attr.valuesIn t, s = "") →
        f.accepts t = false := by
  refine ⟨fun text s => mem_valuesOfText_iff, fun cx p text attr h => ?_,
    fun cx p layout vs attr hvs hspells h => ?_, fun cx p attr f t h hempty => ?_⟩
  · exact Rule.compile_of_read attr h
  · refine ⟨_, _, Rule.compile_of_read attr h, Rule.compile_ofValues vs, ?_⟩
    refine Filter.accepts_values_congr fun s => ?_
    rw [ValueLayout.mem_valuesOfText_text (hspells.fits hvs), List.mem_eraseDups,
      hspells.mem_iff]
  · obtain ⟨text, -, rfl⟩ := Rule.compile_file_iff.1 h
    rw [Filter.accepts, List.any_eq_false]
    intro s hs
    rw [hempty s hs, Matcher.accepts, List.contains_iff_mem, mem_valuesOfText_iff]
    exact fun hmem => hmem.1 rfl

namespace Sample

/-- The file of the sample rule: a line with white space around its value, and a blank line. -/
def layout : ValueLayout :=
  ⟨[(⟨[' '], some "com.example", [' ']⟩, .carriageReturn), (⟨[], none, []⟩, .newline)],
    ⟨[], none, []⟩⟩

theorem isLineValue_package : IsLineValue "com.example" :=
  ⟨by decide, by decide +kernel, by decide⟩

theorem spells_layout : layout.Spells ["com.example"] := by
  refine ⟨?_, ?_⟩
  · have hspace : Text.isBlank ' ' = true := by decide +kernel
    simp [layout, ValueLayout.lines, ValueLine.Blank, hspace]
  · simp [layout, ValueLayout.lines, eq_comm]

theorem read_skip : context.access.read (context.resolve ⟨"skip.txt"⟩) =
    .ok layout.text.toUTF8.toList := by
  decide +kernel

end Sample

theorem valuesFile_spells_sample :
    (∀ v ∈ ["com.example"], IsLineValue v) ∧ Sample.layout.Spells ["com.example"] ∧
      ∃ f g, (Rule.simple .package (.ofFile ⟨"skip.txt"⟩)).compile Sample.context = .ok f ∧
        (Rule.simple .package (.ofValues ["com.example"])).compile Sample.context = .ok g ∧
        (∀ t, f.accepts t = g.accepts t) ∧ f.accepts (.ofNames "" "FooTest" "testA") = false := by
  have hvalues : ∀ v ∈ ["com.example"], IsLineValue v := by
    simpa using Sample.isLineValue_package
  obtain ⟨-, -, hspells, hempty⟩ := valuesFile_spells
  obtain ⟨f, g, hf, hg, haccepts⟩ := hspells Sample.context ⟨"skip.txt"⟩ Sample.layout
    ["com.example"] .package hvalues Sample.spells_layout Sample.read_skip
  have hrefuses := hempty Sample.context ⟨"skip.txt"⟩ .package f (.ofNames "" "FooTest" "testA") hf
    (by decide +kernel)
  exact ⟨hvalues, Sample.spells_layout, f, g, hf, hg, haccepts, hrefuses⟩

end TestSelection
