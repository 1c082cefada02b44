import Mathlib.Tactic.Choose
import TestSelection.Proofs.Json.Scan

/-!
# Texts as trees

**Theorem (`SpellsDocument.ofString_eq`).** A text that is JSON is read as the tree that it stands
for, and to its end, however deep the tree is.

There are two steps, one for each pass of the reader. First, the text is scanned as some tokens,
whatever comes after it (`SpellsTokens`); and second, these tokens are put together to the tree
(`Tree.Builds`). Both steps are taken along the rules of the grammar (`SpellsTree.exists_tokens`),
and both go through the elements of arrays and tables one after the other.
-/

namespace TestSelection.Json

variable {α : Type}

/-! ## Texts to tokens -/

/-- A text gives tokens whatever comes after it, if that is no part of a number. -/
def SpellsTokens (text : List Char) (tokens : List Token) : Prop :=
  ∀ rest, Stops rest → Scans (text.map some ++ rest) tokens rest

theorem stops_cons {c : Char} {rest : List (Option Char)}
    (hc : c ∈ [' ', '\n', '\t', '\r', ',', ']', '\x7d']) : Stops (some c :: rest) := by
  intro d hd
  cases hd
  simp only [List.mem_cons, List.not_mem_nil, or_false] at hc
  rcases hc with rfl | rfl | rfl | rfl | rfl | rfl | rfl <;> decide

theorem Blank.stops {text : List Char} {rest : List (Option Char)} (h : Blank text)
    (hrest : Stops rest) : Stops (text.map some ++ rest) := by
  cases text with
  | nil => exact hrest
  | cons c text =>
    have hc : isSpace c = true := h c List.mem_cons_self
    refine stops_cons ?_
    simp only [isSpace, Bool.or_eq_true, decide_eq_true_eq] at hc
    simp only [List.mem_cons]
    tauto

/-- White space around an item gives no tokens. -/
theorem SpellsTokens.item {i : Item} {tokens : List Token} (h : SpellsTokens i.text tokens) :
    SpellsTokens i.full tokens := by
  intro rest hrest
  simp only [Item.full, List.map_append, List.append_assoc]
  have hafter := (Scans.blank i.blank_after).trans (Scans.refl rest)
  have htext := (h _ (i.blank_after.stops hrest)).trans hafter
  rw [List.nil_append, List.append_nil] at htext
  exact (Scans.blank i.blank_before).trans htext

/-- An entry is a string, a colon and what belongs to the key. -/
theorem SpellsTokens.entry {e : Entry} {tokens : List Token} (h : SpellsTokens e.text tokens) :
    SpellsTokens e.full (.string (stringOf? e.pieces) :: .colon :: tokens) := by
  intro rest hrest
  have hkey : Scans ((('"' :: (e.key ++ ['"'])) ++ (e.colon ++ ':' :: e.toItem.full)).map some ++
      rest) (.string (stringOf? e.pieces) :: .colon :: tokens) rest := by
    rw [List.map_append, List.append_assoc, List.map_append, List.append_assoc]
    exact (scans_string e.spells_key).trans ((Scans.blank e.blank_colon).trans
      ((Scans.token rfl rfl le_rfl).trans (h.item rest hrest)))
  have hfull : e.full =
      e.gap ++ (('"' :: (e.key ++ ['"'])) ++ (e.colon ++ ':' :: e.toItem.full)) := by
    simp [Entry.full]
  rw [hfull, List.map_append, List.append_assoc]
  exact (Scans.blank e.blank_gap).trans hkey

section

variable {text : α → List Char} {tokens : α → List Token} {bracket : Char} {closing : Token}
  {rest : List (Option Char)}

/-- Elements of an array or a table are scanned one after the other, up to the bracket that closes
it. -/
theorem scans_elements (hstop : bracket ∈ [']', '\x7d'])
    (hbracket : Scans (some bracket :: rest) [closing] rest) {x : α} {xs : List α}
    (h : ∀ y ∈ x :: xs, SpellsTokens (text y) (tokens y)) :
    Scans (([','].intercalate ((x :: xs).map text)).map some ++ some bracket :: rest)
      ([Token.comma].intercalate ((x :: xs).map tokens) ++ [closing]) rest := by
  induction xs generalizing x with
  | nil =>
    obtain ⟨hx, -⟩ := List.forall_mem_cons.1 h
    have hend : Stops (some bracket :: rest) :=
      stops_cons (by simp only [List.mem_cons] at hstop ⊢; tauto)
    simpa using (hx _ hend).trans hbracket
  | cons y ys ih =>
    obtain ⟨hx, hys⟩ := List.forall_mem_cons.1 h
    have hcomma (more : List (Option Char)) : Scans (some ',' :: more) [.comma] more :=
      .token rfl rfl le_rfl
    have hx := (hx _ (stops_cons (by decide))).trans ((hcomma _).trans (ih hys))
    simpa [List.intercalate_cons_cons] using hx

end

/-! ## Tokens to trees -/

namespace Tree

/-- Tokens are put together to a tree, if there are enough steps. -/
def Builds (t : Tree) (tokens : List Token) : Prop :=
  ∀ steps rest, 2 * tokens.length ≤ steps → value steps (tokens ++ rest) = (t, some rest)

/-- What is put together to a tree does not start with the end of an array. -/
theorem Builds.ne_closeArray {t : Tree} {tokens : List Token} (h : t.Builds tokens)
    (more rest : List Token) : tokens ++ more ≠ .closeArray :: rest := by
  intro heq
  have hbroken : value (2 * tokens.length + 1) (.closeArray :: rest) = (.broken, none) := rfl
  have hvalue := h (2 * tokens.length + 1) more (Nat.le_succ _)
  rw [heq, hbroken] at hvalue
  cases hvalue

section

variable {tree : α → Tree} {tokens : α → List Token} {steps : Nat} {rest : List Token}

/-- Items are put together one after the other, up to the closing bracket. -/
theorem items_eq {x : α} {xs : List α} (h : ∀ y ∈ x :: xs, (tree y).Builds (tokens y))
    (hsteps : 2 * ([Token.comma].intercalate ((x :: xs).map tokens)).length < steps) :
    items steps ([Token.comma].intercalate ((x :: xs).map tokens) ++ .closeArray :: rest) =
      ((x :: xs).map tree, some rest) := by
  induction xs generalizing x steps with
  | nil =>
    obtain ⟨steps, rfl⟩ := Nat.exists_eq_succ_of_ne_zero (Nat.ne_zero_of_lt hsteps)
    obtain ⟨hx, -⟩ := List.forall_mem_cons.1 h
    simp only [List.map_cons, List.map_nil, List.intercalate_singleton] at hsteps ⊢
    rw [items, hx steps _ (Nat.le_of_lt_succ hsteps)]
  | cons y ys ih =>
    obtain ⟨steps, rfl⟩ := Nat.exists_eq_succ_of_ne_zero (Nat.ne_zero_of_lt hsteps)
    obtain ⟨hx, hys⟩ := List.forall_mem_cons.1 h
    rw [List.map_cons, List.map_cons, List.intercalate_cons_cons, ← List.map_cons] at hsteps ⊢
    simp only [List.length_append, List.length_singleton] at hsteps
    rw [List.append_assoc, List.append_assoc, items, hx steps _ (by omega), List.singleton_append]
    dsimp only
    rw [ih hys (by omega)]
    rfl

/-- Entries are put together one after the other, up to the closing brace. -/
theorem entries_eq {key : α → Option String} {entryTokens : α → List Token}
    (hentry : ∀ y, entryTokens y = .string (key y) :: .colon :: tokens y) {x : α} {xs : List α}
    (h : ∀ y ∈ x :: xs, (tree y).Builds (tokens y))
    (hsteps : 2 * ([Token.comma].intercalate ((x :: xs).map entryTokens)).length < steps) :
    entries steps ([Token.comma].intercalate ((x :: xs).map entryTokens) ++ .closeTable :: rest) =
      ((x :: xs).map fun y => (key y, tree y), some rest) := by
  induction xs generalizing x steps with
  | nil =>
    obtain ⟨steps, rfl⟩ := Nat.exists_eq_succ_of_ne_zero (Nat.ne_zero_of_lt hsteps)
    obtain ⟨hx, -⟩ := List.forall_mem_cons.1 h
    simp only [List.map_cons, List.map_nil, List.intercalate_singleton, hentry,
      List.length_cons] at hsteps ⊢
    rw [List.cons_append, List.cons_append, entries, hx steps _ (by omega)]
  | cons y ys ih =>
    obtain ⟨steps, rfl⟩ := Nat.exists_eq_succ_of_ne_zero (Nat.ne_zero_of_lt hsteps)
    obtain ⟨hx, hys⟩ := List.forall_mem_cons.1 h
    rw [List.map_cons, List.map_cons, List.intercalate_cons_cons, ← List.map_cons] at hsteps ⊢
    simp only [List.length_append, hentry x, List.length_cons] at hsteps
    rw [List.append_assoc, List.append_assoc, hentry x, List.cons_append, List.cons_append,
      entries, hx steps _ (by omega), List.singleton_append]
    dsimp only
    rw [ih hys (by omega)]
    rfl

/-- A token that stands for a tree. -/
theorem builds_singleton {t : Tree} {token : Token}
    (h : ∀ steps rest, value (steps + 1) (token :: rest) = (t, some rest)) : t.Builds [token] := by
  intro steps rest hsteps
  cases steps with
  | zero => cases hsteps
  | succ steps => exact h steps rest

theorem builds_array {x : α} {xs : List α} (h : ∀ y ∈ x :: xs, (tree y).Builds (tokens y)) :
    (array ((x :: xs).map tree)).Builds
      (.openArray :: ([Token.comma].intercalate ((x :: xs).map tokens) ++ [.closeArray])) := by
  intro steps rest hsteps
  simp only [List.length_cons, List.length_append, List.length_nil] at hsteps
  obtain ⟨steps, rfl⟩ := Nat.exists_eq_succ_of_ne_zero (Nat.ne_zero_of_lt hsteps)
  rw [List.cons_append, List.append_assoc, List.singleton_append, value, items_eq h (by omega)]
  intro more
  obtain ⟨hx, -⟩ := List.forall_mem_cons.1 h
  cases xs with
  | nil =>
    rw [List.map_cons, List.map_nil, List.intercalate_singleton]
    exact hx.ne_closeArray _ more
  | cons y ys =>
    rw [List.map_cons, List.map_cons, List.intercalate_cons_cons, List.append_assoc,
      List.append_assoc]
    exact hx.ne_closeArray _ more

theorem builds_table {key : α → Option String} {entryTokens : α → List Token}
    (hentry : ∀ y, entryTokens y = .string (key y) :: .colon :: tokens y) {x : α} {xs : List α}
    (h : ∀ y ∈ x :: xs, (tree y).Builds (tokens y)) :
    (table ((x :: xs).map fun y => (key y, tree y))).Builds
      (.openTable :: ([Token.comma].intercalate ((x :: xs).map entryTokens) ++ [.closeTable])) := by
  intro steps rest hsteps
  simp only [List.length_cons, List.length_append, List.length_nil] at hsteps
  obtain ⟨steps, rfl⟩ := Nat.exists_eq_succ_of_ne_zero (Nat.ne_zero_of_lt hsteps)
  rw [List.cons_append, List.append_assoc, List.singleton_append, value,
    entries_eq hentry h (by omega)]
  intro more
  cases xs with
  | nil => simp [hentry x]
  | cons y ys => simp [hentry x, List.intercalate_cons_cons]

end

end Tree

/-! ## Texts to trees -/

/-- A text of a tree is scanned as tokens that are put together to the tree. -/
theorem SpellsTree.exists_tokens {text : List Char} {t : Tree} (h : SpellsTree text t) :
    ∃ tokens, SpellsTokens text tokens ∧ t.Builds tokens := by
  induction h with
  | null => exact ⟨[.null], fun _ _ => scans_null, Tree.builds_singleton fun _ _ => rfl⟩
  | bool b => exact ⟨[.bool b], fun _ _ => scans_bool b, Tree.builds_singleton fun _ _ => rfl⟩
  | @number text n h =>
    refine ⟨[.number n.value?], fun rest hrest => scans_number h hrest, Tree.builds_singleton ?_⟩
    cases n.value? <;> exact fun _ _ => rfl
  | @string text pieces h =>
    refine ⟨[.string (stringOf? pieces)], fun rest hrest => scans_string h,
      Tree.builds_singleton ?_⟩
    cases stringOf? pieces <;> exact fun _ _ => rfl
  | @emptyArray blank h =>
    refine ⟨[.openArray, .closeArray], fun rest hrest => ?_, fun steps rest hsteps => ?_⟩
    · rw [List.map_cons, List.map_append, List.cons_append, List.append_assoc]
      exact (Scans.token rfl rfl (by simp)).trans
        ((Scans.blank h).trans (.token rfl rfl le_rfl))
    · obtain ⟨steps, rfl⟩ := Nat.exists_eq_succ_of_ne_zero (Nat.ne_zero_of_lt hsteps)
      rfl
  | @array items hne h ih =>
    choose! tokens hscan hbuild using ih
    obtain ⟨x, xs, rfl⟩ := List.exists_cons_of_ne_nil hne
    refine ⟨_, fun rest hrest => ?_, Tree.builds_array hbuild⟩
    rw [List.map_cons, List.map_append, List.cons_append, List.append_assoc]
    exact (Scans.token rfl rfl (by simp)).trans
      (scans_elements (by decide) (.token rfl rfl le_rfl) fun y hy => (hscan y hy).item)
  | @emptyTable blank h =>
    refine ⟨[.openTable, .closeTable], fun rest hrest => ?_, fun steps rest hsteps => ?_⟩
    · rw [List.map_cons, List.map_append, List.cons_append, List.append_assoc]
      exact (Scans.token rfl rfl (by simp)).trans
        ((Scans.blank h).trans (.token rfl rfl le_rfl))
    · obtain ⟨steps, rfl⟩ := Nat.exists_eq_succ_of_ne_zero (Nat.ne_zero_of_lt hsteps)
      rfl
  | @table entries hne h ih =>
    choose! tokens hscan hbuild using ih
    obtain ⟨x, xs, rfl⟩ := List.exists_cons_of_ne_nil hne
    refine ⟨_, fun rest hrest => ?_, Tree.builds_table (fun _ => rfl) hbuild⟩
    rw [List.map_cons, List.map_append, List.cons_append, List.append_assoc]
    exact (Scans.token rfl rfl (by simp)).trans
      (scans_elements (by decide) (.token rfl rfl le_rfl) fun y hy => (hscan y hy).entry)

/-- A text that is JSON is read as the tree that it stands for, and to its end. -/
theorem SpellsDocument.ofString_eq {text : String} {t : Tree} (h : SpellsDocument text t) :
    Document.ofString text = ⟨t, true⟩ := by
  obtain ⟨i, htext, rfl, h⟩ := h
  obtain ⟨tokens, hscan, hbuild⟩ := h.exists_tokens
  have hscan := hscan.item [] (by simp [Stops])
  have hbuild := hbuild (2 * tokens.length + 2) [] (by omega)
  rw [List.append_nil] at hscan hbuild
  rw [Document.ofString, Document.ofChars, htext, hscan.scan_eq, Document.ofTokens, hbuild]

end TestSelection.Json
