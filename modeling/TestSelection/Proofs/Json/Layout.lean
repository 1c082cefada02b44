import Mathlib.Tactic.SplitIfs
import TestSelection.Proofs.Json.Document
import TestSelection.Proofs.Json.Value

/-!
# Documents that were written

**Theorem (`Document.ofString_write`).** A value that was written, in either layout, is read as the
tree of the value, and the text is read to its end. White space after it makes no difference.

Both layouts are JSON that stands for the tree of the value (`spells_write`). They differ in white
space only: in front of each element of an array or a table, and in front of the bracket that closes
it (`spells_array`, `spells_table`).

The values have no floats (`Value.Exact`), since a float may come back as another one.
-/

namespace TestSelection

/-- A value that JSON holds as it is: without floats, and with integers of 64 bits only. -/
inductive Value.Exact : Value → Prop
  | null : Exact .null
  | bool (b : Bool) : Exact (.bool b)
  | int {n : Int} (hlow : Int64.minValue.toInt ≤ n) (hhigh : n < UInt64.size) : Exact (.int n)
  | string (s : String) : Exact (.string s)
  | array {items : List Value} (h : ∀ v ∈ items, Exact v) : Exact (.array items)
  | table {entries : List (String × Value)} (h : ∀ e ∈ entries, Exact e.2) : Exact (.table entries)

namespace Json

/-! ## Strings -/

theorem hexValue?_hexDigit (n : Nat) : Text.hexValue? (hexDigit n) = some (n % 16) := by
  have hdigits : ∀ d < 16, Text.hexValue? (Nat.digitChar d) = some d := by decide
  exact hdigits _ (Nat.mod_lt n (by omega))

theorem hexValue4?_hexDigit {n : Nat} (h : n < 0x20) :
    hexValue4? '0' '0' (hexDigit (n / 16)) (hexDigit n) = some n := by
  have hzero : Text.hexValue? '0' = some 0 := by decide
  simp only [hexValue4?, hexValue?_hexDigit, hzero, Option.bind_eq_bind, Option.bind_some,
    Option.pure_def, Option.some_inj]
  omega

/-- A character is written as one piece, which stands for the character. -/
theorem exists_piece (c : Char) :
    ∃ piece, (∀ text pieces, SpellsString text pieces →
        SpellsString (escape c ++ text) (piece :: pieces)) ∧
      ∀ pieces, assemble (piece :: pieces) = (assemble pieces).map (c :: ·) := by
  have hletter (letter : Char) (hletter : unescape? letter = some c) :
      ∃ piece, (∀ text pieces, SpellsString text pieces →
        SpellsString ('\\' :: letter :: text) (piece :: pieces)) ∧
        ∀ pieces, assemble (piece :: pieces) = (assemble pieces).map (c :: ·) :=
    ⟨.char c, fun _ _ => .letter hletter, fun _ => rfl⟩
  unfold escape
  split_ifs with h₁ h₂ h₃ h₄ h₅ h₆ h₇ hlow
  · exact hletter '"' (by rw [h₁]; rfl)
  · exact hletter '\\' (by rw [h₂]; rfl)
  · exact hletter 'b' (by rw [h₃]; rfl)
  · exact hletter 't' (by rw [h₄]; rfl)
  · exact hletter 'n' (by rw [h₅]; rfl)
  · exact hletter 'f' (by rw [h₆]; rfl)
  · exact hletter 'r' (by rw [h₇]; rfl)
  · refine ⟨.unit c.toNat, fun text pieces => .unit (hexValue4?_hexDigit hlow), fun pieces => ?_⟩
    have hbelow : c.toNat < 0xD800 ∨ 0xDFFF < c.toNat := .inl (by omega)
    rw [assemble.eq_def]
    simp only [if_pos hbelow, Char.ofNat_toNat]
  · exact ⟨.char c, fun text pieces => .char h₁ h₂ (Nat.le_of_not_lt hlow), fun _ => rfl⟩

/-- The characters of a string are written as pieces that stand for the string. -/
theorem exists_pieces (s : String) :
    ∃ pieces, SpellsString (s.toList.flatMap escape) pieces ∧ stringOf? pieces = some s := by
  have hchars (cs : List Char) :
      ∃ pieces, SpellsString (cs.flatMap escape) pieces ∧ assemble pieces = some cs := by
    induction cs with
    | nil => exact ⟨[], .nil, rfl⟩
    | cons c cs ih =>
      obtain ⟨pieces, hspells, hpieces⟩ := ih
      obtain ⟨piece, hpiece, hassemble⟩ := exists_piece c
      exact ⟨piece :: pieces, hpiece _ _ hspells, by rw [hassemble, hpieces]; rfl⟩
  obtain ⟨pieces, hspells, hpieces⟩ := hchars s.toList
  exact ⟨pieces, hspells, by rw [stringOf?, hpieces, Option.map_some, String.ofList_toList]⟩

theorem spells_quote (s : String) : SpellsTree (quote s) (.string s) := by
  obtain ⟨pieces, hspells, hpieces⟩ := exists_pieces s
  have htree := SpellsTree.string hspells
  rw [hpieces] at htree
  exact htree

/-! ## Integers -/

/-- A number is written with its digits, and without zeros in front. -/
theorem exists_digits (n : Nat) :
    ∃ ds, SpellsDigits (Nat.toDigits 10 n) ds ∧ (ds.head? = some 0 → ds = [0]) ∧
      Numeral.ofDigits ds = n := by
  induction n using Nat.strongRecOn with
  | ind n ih =>
    by_cases hlt : n < 10
    · refine ⟨[n], ⟨Nat.toDigits_of_lt_base hlt, by simp, by simpa using hlt⟩, by simp, ?_⟩
      simp [Numeral.ofDigits]
    · obtain ⟨ds, ⟨htext, hne, hds⟩, hzero, hvalue⟩ := ih (n / 10) (by omega)
      have hhead : ds.head? ≠ some 0 := by
        intro hhead
        rw [hzero hhead] at hvalue
        have hsmall : n / 10 = 0 := hvalue.symm
        omega
      refine ⟨ds ++ [n % 10], ⟨?_, by simp, ?_⟩, ?_, ?_⟩
      · rw [Nat.toDigits_of_base_le (by omega) (by omega), htext, List.map_append]
        rfl
      · rw [List.forall_mem_append]
        exact ⟨hds, by simp; omega⟩
      · rw [List.head?_append_of_ne_nil _ hne]
        exact fun h => absurd h hhead
      · rw [Numeral.ofDigits, List.foldl_append, ← Numeral.ofDigits, hvalue]
        simp
        omega

/-- An integer of 64 bits, with or without a sign, is written as a number with its value. -/
theorem spells_intText {n : Int} (hlow : Int64.minValue.toInt ≤ n) (hhigh : n < UInt64.size) :
    SpellsTree (intText n) (.number (.int n)) := by
  have hspells (negative : Bool) {size : Nat} {ds : List Nat}
      (hds : SpellsDigits (Nat.toDigits 10 size) ds) (hzero : ds.head? = some 0 → ds = [0]) :
      SpellsTree (minusText negative ++ Nat.toDigits 10 size)
        (.ofNumber? (Numeral.value? ⟨negative, ds, none, none⟩)) := by
    have hnumber := SpellsNumber.intro (n := ⟨negative, ds, none, none⟩) hds hzero .none .none
    rw [List.append_nil, List.append_nil] at hnumber
    exact .number hnumber
  cases n with
  | ofNat n =>
    obtain ⟨ds, hds, hzero, hvalue⟩ := exists_digits n
    have hnumber : Numeral.value? ⟨false, ds, none, none⟩ = some (.int n) := by
      have hn : n < UInt64.size := Int.ofNat_lt.1 hhigh
      simp [Numeral.value?, hvalue, hn]
    have htree := hspells false hds hzero
    rw [hnumber] at htree
    exact htree
  | negSucc n =>
    obtain ⟨ds, hds, hzero, hvalue⟩ := exists_digits (n + 1)
    have hnumber : Numeral.value? ⟨true, ds, none, none⟩ = some (.int (.negSucc n)) := by
      have hsize : Int64.minValue.toInt ≤ -((n + 1 : Nat) : Int) := hlow
      simp only [Numeral.value?, Option.isNone_none, Bool.and_self, if_true, hvalue,
        decide_eq_true hsize, decide_eq_true n.succ_pos]
      rfl
    have htree := hspells true hds hzero
    rw [hnumber] at htree
    exact htree

/-! ## Arrays and tables -/

theorem blank_nil : Blank [] := by simp [Blank]

section

variable {α β : Type} {make : α → {text // Blank text} → β} {close : {text // Blank text}}

/-- Elements with white space after the last one. -/
def closed (make : α → {text // Blank text} → β) (close : {text // Blank text}) : List α → List β
  | [] => []
  | [x] => [make x close]
  | x :: y :: xs => make x ⟨[], blank_nil⟩ :: closed make close (y :: xs)

theorem closed_ne_nil (x : α) (xs : List α) : closed make close (x :: xs) ≠ [] := by
  cases xs <;> simp [closed]

theorem map_closed {γ : Type} {f : β → γ} {g : α → γ} (h : ∀ x after, f (make x after) = g x)
    (xs : List α) : (closed make close xs).map f = xs.map g := by
  induction xs with
  | nil => rfl
  | cons x xs ih =>
    cases xs with
    | nil => simp [closed, h]
    | cons y ys => rw [closed, List.map_cons, h, ih, List.map_cons (l := y :: ys)]

theorem forall_mem_closed {P : β → Prop} {xs : List α} (h : ∀ x ∈ xs, ∀ after, P (make x after)) :
    ∀ e ∈ closed make close xs, P e := by
  induction xs with
  | nil => exact List.forall_mem_nil _
  | cons x xs ih =>
    obtain ⟨hx, hxs⟩ := List.forall_mem_cons.1 h
    cases xs with
    | nil => exact List.forall_mem_singleton.2 (hx close)
    | cons y ys => exact List.forall_mem_cons.2 ⟨hx _, ih hxs⟩

/-- A layout writes commas between elements, and white space in front of the closing bracket. -/
theorem intercalate_closed (make : α → {text // Blank text} → β) {full : β → List Char}
    {texts : List α → List Char} {gap : List Char} {bracket : Char} {core : α → List Char}
    (hfull : ∀ x after, full (make x after) = gap ++ (core x ++ after))
    (hnil : texts [] = close ++ [bracket])
    (hcons : ∀ x xs, texts (x :: xs) = ',' :: (gap ++ core x ++ texts xs)) (x : α) (xs : List α) :
    gap ++ core x ++ texts xs =
      [','].intercalate ((closed make close (x :: xs)).map full) ++ [bracket] := by
  induction xs generalizing x with
  | nil => simp [closed, hfull, hnil]
  | cons y ys ih =>
    have hne : (closed make close (y :: ys)).map full ≠ [] := by
      rw [ne_eq, List.map_eq_nil_iff]
      exact closed_ne_nil y ys
    rw [hcons, ih, closed, List.map_cons, hfull, List.intercalate_cons_of_ne_nil hne]
    simp

end

section

variable {gap colon : List Char} {text : Value → List Char}

theorem spells_array (close : {text // Blank text}) {texts : List Value → List Char}
    (hgap : Blank gap) (hnil : texts [] = close ++ [']'])
    (hcons : ∀ v vs, texts (v :: vs) = ',' :: (gap ++ text v ++ texts vs))
    {v : Value} {vs : List Value} (h : ∀ w ∈ v :: vs, SpellsTree (text w) (Tree.ofValue w)) :
    SpellsTree ('[' :: (gap ++ text v ++ texts vs)) (Tree.ofValue (.array (v :: vs))) := by
  let make (w : Value) (after : {text // Blank text}) : Item :=
    ⟨gap, text w, after, Tree.ofValue w, hgap, after.2⟩
  have hfull (w : Value) (after : {text // Blank text}) :
      (make w after).full = gap ++ (text w ++ after) := rfl
  have htree (w : Value) (after : {text // Blank text}) :
      (make w after).tree = Tree.ofValue w := rfl
  have htrees : (closed make close (v :: vs)).map Item.tree = Tree.ofItems (v :: vs) := by
    rw [Tree.ofItems_eq_map]
    exact map_closed htree _
  rw [intercalate_closed make hfull hnil hcons, Tree.ofValue, ← htrees]
  exact .array (closed_ne_nil v vs) (forall_mem_closed fun w hw _ => h w hw)

theorem spells_table (close : {text // Blank text}) {texts : List (String × Value) → List Char}
    (hgap : Blank gap) (hcolon : Blank colon) (hnil : texts [] = close ++ ['\x7d'])
    (hcons : ∀ e es, texts (e :: es) =
      ',' :: (gap ++ (quote e.1 ++ ':' :: (colon ++ text e.2)) ++ texts es))
    {e : String × Value} {es : List (String × Value)}
    (h : ∀ f ∈ e :: es, SpellsTree (text f.2) (Tree.ofValue f.2)) :
    SpellsTree ('\x7b' :: (gap ++ (quote e.1 ++ ':' :: (colon ++ text e.2)) ++ texts es))
      (Tree.ofValue (.table (e :: es))) := by
  choose pieces hspells hpieces using exists_pieces
  let make (f : String × Value) (after : {text // Blank text}) : Entry :=
    { before := colon, text := text f.2, after := after, tree := Tree.ofValue f.2,
      blank_before := hcolon, blank_after := after.2,
      gap := gap, key := f.1.toList.flatMap escape, pieces := pieces f.1, colon := [],
      blank_gap := hgap, spells_key := hspells f.1, blank_colon := blank_nil }
  have hfull (f : String × Value) (after : {text // Blank text}) : (make f after).full =
      gap ++ ((quote f.1 ++ ':' :: (colon ++ text f.2)) ++ after) := by
    simp [make, Entry.full, Item.full, quote]
  have hentries : (closed make close (e :: es)).map Entry.entry = Tree.ofEntries (e :: es) := by
    rw [Tree.ofEntries_eq_map]
    refine map_closed (fun f after => ?_) _
    rw [Entry.entry, hpieces]
  rw [intercalate_closed make hfull hnil hcons, Tree.ofValue, ← hentries]
  exact .table (closed_ne_nil e es) (forall_mem_closed fun f hf _ => h f hf)

end

/-! ## Layouts -/

theorem spells_emptyArray : SpellsTree ['[', ']'] (.array []) := .emptyArray blank_nil

theorem spells_emptyTable : SpellsTree ['\x7b', '\x7d'] (.table []) := .emptyTable blank_nil

theorem spells_compact {v : Value} (hv : v.Exact) : SpellsTree (compact v) (Tree.ofValue v) := by
  induction hv with
  | null => exact .null
  | bool b => exact .bool b
  | int hlow hhigh => exact spells_intText hlow hhigh
  | string s => exact spells_quote s
  | @array items _ ih =>
    cases items with
    | nil => exact spells_emptyArray
    | cons v vs =>
      exact spells_array ⟨[], blank_nil⟩ blank_nil rfl (fun _ _ => rfl) ih
  | @table entries _ ih =>
    cases entries with
    | nil => exact spells_emptyTable
    | cons e es =>
      exact spells_table ⟨[], blank_nil⟩ blank_nil blank_nil rfl (fun _ _ => rfl) ih

theorem blank_indent (level : Nat) : Blank (indent level) := by
  simp [Blank, indent, isSpace]

theorem spells_pretty (level : Nat) {v : Value} (hv : v.Exact) :
    SpellsTree (pretty level v) (Tree.ofValue v) := by
  induction hv generalizing level with
  | null => exact .null
  | bool b => exact .bool b
  | int hlow hhigh => exact spells_intText hlow hhigh
  | string s => exact spells_quote s
  | @array items _ ih =>
    cases items with
    | nil => exact spells_emptyArray
    | cons v vs =>
      exact spells_array ⟨_, blank_indent level⟩ (blank_indent (level + 1)) rfl
        (fun _ _ => rfl) fun w hw => ih w hw (level + 1)
  | @table entries _ ih =>
    have hcolon : Blank [' '] := by simp [Blank, isSpace]
    have hcons (e : String × Value) (es : List (String × Value)) :
        prettyEntries level (e :: es) = ',' :: (indent (level + 1) ++
          (quote e.1 ++ ':' :: ([' '] ++ pretty (level + 1) e.2)) ++ prettyEntries level es) := by
      simp [prettyEntries]
    cases entries with
    | nil => exact spells_emptyTable
    | cons e es =>
      have htable : SpellsTree _ (Tree.ofValue (.table (e :: es))) :=
        spells_table ⟨_, blank_indent level⟩ (blank_indent (level + 1)) hcolon rfl hcons
          fun f hf => ih f hf (level + 1)
      rw [pretty]
      simpa using htable

/-- Both layouts of a value stand for its tree. -/
theorem spells_write (layout : Layout) {v : Value} (hv : v.Exact) :
    SpellsTree (write layout v).toList (Tree.ofValue v) := by
  cases layout with
  | compact => rw [write, String.toList_ofList]; exact spells_compact hv
  | pretty => rw [write, String.toList_ofList]; exact spells_pretty 0 hv

/-- A value that was written is JSON, whatever white space follows it. -/
theorem spellsDocument_write (layout : Layout) {v : Value} (hv : v.Exact) {blank : String}
    (hblank : Blank blank.toList) :
    SpellsDocument (write layout v ++ blank) (Tree.ofValue v) := by
  refine ⟨⟨[], (write layout v).toList, blank.toList, Tree.ofValue v, blank_nil, hblank⟩, ?_, rfl,
    spells_write layout hv⟩
  rw [String.toList_append, Item.full, List.nil_append]

/-- A value that was written is read as the tree of the value, whatever white space follows it. -/
theorem Document.ofString_write (layout : Layout) {v : Value} (hv : v.Exact) {blank : String}
    (hblank : Blank blank.toList) :
    ofString (write layout v ++ blank) = ⟨Tree.ofValue v, true⟩ :=
  (spellsDocument_write layout hv hblank).ofString_eq

end Json

end TestSelection
