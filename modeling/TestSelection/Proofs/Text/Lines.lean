import Mathlib.Data.List.DropRight
import TestSelection.Text.Blank

/-!
# Trimmed texts and lines

What is left of a text without the white space at its ends has none there itself, and white space
can be put around it without a difference (`trim_append`).

A carriage return at the end of a line is white space, and nothing is left of an empty line. So what
is left of the lines of a text is what is left of its pieces between line feeds (`trim_lines`), and
it need not be told whether a carriage return belongs to a line or to its end.
-/

namespace TestSelection.Text

/-! ## Trimmed texts -/

/-- A text has no white space at its ends. -/
def Trimmed (text : List Char) : Prop :=
  (∀ c ∈ text.head?, isBlank c = false) ∧ ∀ c ∈ text.getLast?, isBlank c = false

-- found by itself, the check could go through all characters instead of the one at the end
instance (text : List Char) : Decidable (Trimmed text) :=
  @instDecidableAnd _ _ text.head?.decidableForallMem text.getLast?.decidableForallMem

theorem trim_eq_rdropWhile (text : List Char) :
    trim text = (text.dropWhile isBlank).rdropWhile isBlank := rfl

theorem trimmed_trim (text : List Char) : Trimmed (trim text) := by
  rw [trim_eq_rdropWhile]
  constructor
  · intro c hc
    -- What is trimmed at the end starts as it did before, if it is not empty.
    obtain ⟨rest, hrest⟩ := List.rdropWhile_prefix isBlank (text.dropWhile isBlank)
    have hhead : (text.dropWhile isBlank).head? = some c := by
      rw [← hrest, List.head?_append, Option.mem_def.1 hc, Option.some_or]
    have hnot := List.head?_dropWhile_not isBlank text
    rwa [hhead] at hnot
  · intro c hc
    obtain ⟨hne, rfl⟩ := List.mem_getLast?_eq_getLast hc
    exact Bool.eq_false_iff.2 (List.rdropWhile_last_not isBlank _ hne)

theorem dropWhile_of_head? {text : List Char} (h : ∀ c ∈ text.head?, isBlank c = false) :
    text.dropWhile isBlank = text := by
  cases text with
  | nil => rfl
  | cons c cs => exact List.dropWhile_cons_of_neg (Bool.eq_false_iff.1 (h c rfl))

/-- Trimming takes white space away from around a trimmed text, and leaves the text. -/
theorem trim_append {before value after : List Char} (hbefore : ∀ c ∈ before, isBlank c = true)
    (hafter : ∀ c ∈ after, isBlank c = true) (hvalue : Trimmed value) :
    trim (before ++ value ++ after) = value := by
  rw [trim, List.append_assoc, List.dropWhile_append_of_pos hbefore]
  by_cases hnil : value = []
  · subst hnil
    rw [List.nil_append, List.dropWhile_eq_nil_iff.2 hafter]
    rfl
  · have hhead : ∀ c ∈ (value ++ after).head?, isBlank c = false := by
      rw [List.head?_append_of_ne_nil _ hnil]
      exact hvalue.1
    have hlast : ∀ c ∈ value.reverse.head?, isBlank c = false := by
      rw [List.head?_reverse]
      exact hvalue.2
    rw [dropWhile_of_head? hhead, List.reverse_append,
      List.dropWhile_append_of_pos fun c hc => hafter c (List.mem_reverse.1 hc),
      dropWhile_of_head? hlast, List.reverse_reverse]

theorem trim_concat {c : Char} (h : isBlank c = true) (text : List Char) :
    trim (text ++ [c]) = trim text := by
  rw [trim_eq_rdropWhile, trim_eq_rdropWhile, List.dropWhile_append]
  split
  · next hempty =>
    rw [List.isEmpty_iff.1 hempty, List.dropWhile_cons_of_pos h, List.dropWhile_nil]
  · rw [List.rdropWhile_concat_pos _ _ _ h]

/-! ## Pieces -/

theorem pieces_eq_splitOn (separator : Char) (text : List Char) :
    pieces separator text = text.splitOn separator := by
  induction text with
  | nil => rfl
  | cons c cs ih =>
    rw [pieces, ih, List.splitOn_cons_eq_if_modifyHead]
    simp only [beq_iff_eq]
    split_ifs with hc
    · rfl
    · cases hcs : cs.splitOn separator with
      | nil => exact absurd hcs (List.splitOn_ne_nil _ _)
      | cons piece rest => rfl

theorem splitOn_of_not_mem {separator : Char} {piece : List Char} (h : separator ∉ piece) :
    piece.splitOn separator = [piece] := by
  have hsplit : ([separator].intercalate [piece]).splitOn separator = [piece] :=
    List.splitOn_intercalate separator (by simpa using h) (by simp)
  rwa [List.intercalate_singleton] at hsplit

/-! ## Lines -/

theorem trim_dropReturn (line : List Char) : trim (dropReturn line) = trim line := by
  have hreturn : isBlank '\r' = true := by decide +kernel
  unfold dropReturn
  split
  · next hlast =>
    rw [← trim_concat hreturn line.dropLast, List.dropLast_append_getLast? _ hlast]
  · rfl

/-- The lines of a text and its pieces between line feeds are the same once they are trimmed, except
where nothing is left. -/
theorem trim_lines (text : List Char) :
    ((lines text).map trim).filter (fun v => !v.isEmpty) =
      ((pieces '\n' text).map trim).filter fun v => !v.isEmpty := by
  unfold lines
  fun_induction linesOf (pieces '\n' text) with
  | case1 => rfl
  | case2 last hlast =>
    rw [List.isEmpty_iff.1 hlast]
    rfl
  | case3 last hlast => rfl
  | case4 piece rest hrest ih =>
    rw [List.map_cons, List.map_cons, List.filter_cons, List.filter_cons, trim_dropReturn, ih]

end TestSelection.Text
