import Mathlib.Data.List.Forall2
import TestSelection.Output.Style

/-!
# Text without its styles

`Style.strip` deletes the sequences that set styles: the escape character, a bracket, numbers with
semicolons between them, and an `m`.

A text with styles strips to the text without them (`Style.StripsTo`). This is put together piece by
piece: deleting goes through a text without escape characters as it goes through nothing
(`StripsTo.of_not_mem`), and through a styled text as through the text (`StripsTo.apply`), whatever
comes next. So a sequence never begins in one piece and ends in another.
-/

namespace TestSelection.Style

/-! ## Deleting sequences -/

/-- A character of the codes in a sequence. -/
def isCode (c : Char) : Bool := c.isDigit || c = ';'

/-- The text after some codes and an `m`. -/
def afterCodes? : List Char → Option (List Char)
  | [] => none
  | c :: rest => if isCode c then afterCodes? rest else if c = 'm' then some rest else none

/-- The text after the sequence at its start, if it starts with one. -/
def afterSequence? : List Char → Option (List Char)
  | '\x1b' :: '[' :: rest => afterCodes? rest
  | _ => none

theorem length_lt_of_afterCodes? {text rest : List Char} (h : afterCodes? text = some rest) :
    rest.length < text.length := by
  induction text with
  | nil => cases h
  | cons c text ih =>
    rw [afterCodes?] at h
    split_ifs at h with hcode hend
    · exact Nat.lt_succ_of_lt (ih h)
    · cases h
      exact Nat.lt_succ_self _

theorem length_lt_of_afterSequence? {text rest : List Char} (h : afterSequence? text = some rest) :
    rest.length < text.length := by
  unfold afterSequence? at h
  split at h
  · next codes =>
    have hlt := length_lt_of_afterCodes? h
    simp only [List.length_cons]
    omega
  · cases h

/-- The characters of a text that belong to no sequence. -/
def stripped : List Char → List Char
  | [] => []
  | c :: text =>
    match _h : afterSequence? (c :: text) with
    | some rest => stripped rest
    | none => c :: stripped text
termination_by text => text.length
decreasing_by
  · exact length_lt_of_afterSequence? _h
  · exact Nat.lt_succ_self _

/-- A text without the sequences that set styles. -/
def strip (text : String) : String := .ofList (stripped text.toList)

theorem stripped_nil : stripped [] = [] := by rw [stripped]

theorem stripped_cons {c : Char} (hc : c ≠ '\x1b') (text : List Char) :
    stripped (c :: text) = c :: stripped text := by
  have hnone : afterSequence? (c :: text) = none := by
    unfold afterSequence?
    split
    · next heq => exact absurd (List.cons.inj heq).1 hc
    · rfl
  rw [stripped]
  split
  · next h => cases hnone.symm.trans h
  · rfl

theorem stripped_sequence {text rest : List Char} (h : afterSequence? text = some rest) :
    stripped text = stripped rest := by
  cases text with
  | nil => cases h
  | cons c text =>
    rw [stripped]
    split
    · next h' => rw [Option.some_inj.1 (h'.symm.trans h)]
    · next h' => cases h'.symm.trans h

/-! ## Piece by piece -/

/-- The codes of a style are numbers. -/
def Numeric (s : Style) : Prop := ∀ code ∈ s.codes, ∀ c ∈ code.toList, c.isDigit = true

theorem afterCodes?_append {codes : List Char} (h : ∀ c ∈ codes, isCode c = true)
    (rest : List Char) : afterCodes? (codes ++ 'm' :: rest) = some rest := by
  induction codes with
  | nil => rfl
  | cons c codes ih =>
    obtain ⟨hc, hcodes⟩ := List.forall_mem_cons.1 h
    rw [List.cons_append, afterCodes?, if_pos hc, ih hcodes]

theorem isCode_of_mem_intercalate {codes : List (List Char)}
    (h : ∀ code ∈ codes, ∀ c ∈ code, c.isDigit = true) :
    ∀ c ∈ [';'].intercalate codes, isCode c = true := by
  have hdigits {code : List Char} (hcode : ∀ c ∈ code, c.isDigit = true) :
      ∀ c ∈ code, isCode c = true := fun c hc => by rw [isCode, hcode c hc, Bool.true_or]
  induction codes with
  | nil => exact List.forall_mem_nil _
  | cons code codes ih =>
    obtain ⟨hcode, hcodes⟩ := List.forall_mem_cons.1 h
    cases codes with
    | nil => simpa using hdigits hcode
    | cons next codes =>
      rw [List.intercalate_cons_cons, List.forall_mem_append, List.forall_mem_append]
      exact ⟨⟨hdigits hcode, by simp [isCode]⟩, ih hcodes⟩

/-- A sequence that sets a style is deleted. -/
theorem stripped_on {s : Style} (h : s.Numeric) (rest : List Char) :
    stripped (s.on.toList ++ rest) = stripped rest := by
  refine stripped_sequence ?_
  have hcodes : ∀ c ∈ [';'].intercalate (s.codes.map String.toList), isCode c = true :=
    isCode_of_mem_intercalate (List.forall_mem_map.2 h)
  have hon : s.on.toList ++ rest =
      '\x1b' :: '[' :: ([';'].intercalate (s.codes.map String.toList) ++ 'm' :: rest) := by
    simp [on, String.toList_intercalate]
  rw [hon, afterSequence?, afterCodes?_append hcodes]

theorem stripped_off (rest : List Char) : stripped (off.toList ++ rest) = stripped rest :=
  stripped_sequence rfl

/-- A text with styles is the other one without them, whatever comes next. -/
def StripsTo (styled plain : String) : Prop :=
  ∀ rest, stripped (styled.toList ++ rest) = plain.toList ++ stripped rest

namespace StripsTo

variable {styled plain styled' plain' : String} {pieces plainPieces : List String}

theorem strip_eq (h : StripsTo styled plain) : strip styled = plain := by
  have hnil := h []
  rw [List.append_nil, stripped_nil, List.append_nil] at hnil
  rw [strip, hnil, String.ofList_toList]

theorem of_not_mem {text : String} (h : '\x1b' ∉ text.toList) : StripsTo text text := by
  intro rest
  generalize text.toList = text at h
  induction text with
  | nil => rfl
  | cons c text ih =>
    obtain ⟨hc, htext⟩ := List.ne_and_not_mem_of_not_mem_cons h
    rw [List.cons_append, stripped_cons hc.symm, ih htext, List.cons_append]

theorem append (h : StripsTo styled plain) (h' : StripsTo styled' plain') :
    StripsTo (styled ++ styled') (plain ++ plain') := by
  intro rest
  simp only [String.toList_append, List.append_assoc, h _, h' _]

/-- A style around a text is deleted. -/
theorem apply {s : Style} (hs : s.Numeric) {text : String} (h : '\x1b' ∉ text.toList) :
    StripsTo (s.apply text) text := by
  rw [Style.apply]
  split_ifs with hplain
  · exact of_not_mem h
  · intro rest
    rw [String.toList_append, String.toList_append, List.append_assoc, List.append_assoc,
      stripped_on hs, of_not_mem h, stripped_off]

theorem join (h : List.Forall₂ StripsTo pieces plainPieces) :
    StripsTo (String.join pieces) (String.join plainPieces) := by
  induction h with
  | nil => exact fun _ => rfl
  | cons hpiece _ ih =>
    rw [String.join_cons, String.join_cons]
    exact hpiece.append ih

end StripsTo

end TestSelection.Style
