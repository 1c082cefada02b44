import TestSelection.Proofs.Json.Value
import TestSelection.Proofs.Pairing

/-!
# How deep a value from a text can be

**Theorem (`Tree.toValue_eq_ok_iff`).** A tree is read as a value if it is the tree of that value,
and the value is not deeper than the room for it. This needs a tree in which numbers are numbers
(`Tree.Plain`), and the tree of any text is such a tree (`Document.plain_ofString`): the scanner
gives only such numbers, and nothing is made into a number when the tokens are put together.
-/

namespace TestSelection

/-- A value that a number of a text can have. -/
inductive Value.IsNumber : Value → Prop
  | int (n : Int) : IsNumber (.int n)
  | float (x : Float) : IsNumber (.float x)

theorem Value.IsNumber.depth_eq {n : Value} (h : n.IsNumber) : n.depth = 0 := by
  cases h <;> rfl

namespace Json

/-! ## Plain trees -/

namespace Tree

/-- The numbers of a tree are numbers, and no other values. -/
inductive Plain : Tree → Prop
  | null : Plain .null
  | bool (b : Bool) : Plain (.bool b)
  | number {n : Value} (h : n.IsNumber) : Plain (.number n)
  | string (s : String) : Plain (.string s)
  | array {items : List Tree} (h : ∀ t ∈ items, Plain t) : Plain (.array items)
  | table {entries : List (Option String × Tree)} (h : ∀ e ∈ entries, Plain e.2) :
      Plain (.table entries)
  | unreadable : Plain .unreadable
  | broken : Plain .broken

/-- What was read as a value was not too deep. -/
theorem depth_le_of_toValue {room : Nat} {t : Tree} {v : Value} (ht : t.Plain)
    (h : t.toValue room = .ok v) : v.depth ≤ room := by
  induction ht generalizing room v with
  | null | bool | string =>
    cases h
    exact Nat.zero_le room
  | number hn =>
    cases h
    exact hn.depth_eq.le.trans (Nat.zero_le room)
  | array _ ih =>
    obtain ⟨rest, vs, rfl, rfl, hvs⟩ := toValue_array_eq_ok_iff.1 h
    refine Value.depth_array_le_iff.2 fun v hv => ?_
    obtain ⟨t, ht, htv⟩ := (Paired.of_forall₂ hvs).exists_left hv
    exact ih t ht htv
  | table _ ih =>
    obtain ⟨rest, fs, rfl, rfl, hfs⟩ := toValue_table_eq_ok_iff.1 h
    refine Value.depth_table_le_iff.2 fun f hf => ?_
    obtain ⟨e, he, -, hef⟩ := (Paired.of_forall₂ hfs).exists_left hf
    exact ih e he hef
  | unreadable | broken => cases h

/-- What was read as a value is the tree of that value. -/
theorem eq_ofValue_of_toValue {room : Nat} {t : Tree} {v : Value} (ht : t.Plain)
    (h : t.toValue room = .ok v) : t = ofValue v := by
  induction ht generalizing room v with
  | null | bool | string =>
    cases h
    rfl
  | number hn =>
    cases h
    cases hn <;> rfl
  | array _ ih =>
    obtain ⟨rest, vs, rfl, rfl, hvs⟩ := toValue_array_eq_ok_iff.1 h
    have hitems := ((List.forall₂_and_left _ _).2 ⟨ih, hvs⟩).imp fun t v h => h.1 h.2
    rw [ofValue, ofItems_eq_map, Tree.array.injEq, ← List.forall₂_eq_eq_eq,
      List.forall₂_map_right_iff]
    exact hitems
  | table _ ih =>
    obtain ⟨rest, fs, rfl, rfl, hfs⟩ := toValue_table_eq_ok_iff.1 h
    have hentries := ((List.forall₂_and_left _ _).2 ⟨ih, hfs⟩).imp fun e f h =>
      show e = (some f.1, ofValue f.2) from Prod.ext h.2.1 (h.1 h.2.2)
    rw [ofValue, ofEntries_eq_map, Tree.table.injEq, ← List.forall₂_eq_eq_eq,
      List.forall₂_map_right_iff]
    exact hentries
  | unreadable | broken => cases h

/-- A tree is read as a value if it is the tree of that value and there is room for it. -/
theorem toValue_eq_ok_iff {room : Nat} {t : Tree} {v : Value} (ht : t.Plain) :
    t.toValue room = .ok v ↔ t = ofValue v ∧ v.depth ≤ room := by
  constructor
  · exact fun h => ⟨eq_ofValue_of_toValue ht h, depth_le_of_toValue ht h⟩
  · rintro ⟨rfl, hroom⟩
    exact toValue_ofValue hroom

end Tree

/-! ## Plain tokens -/

/-- The number of a token is a number, and no other value. -/
def Token.Plain : Token → Prop
  | .number (some n) => n.IsNumber
  | _ => True

theorem isNumber_of_value? {numeral : Numeral} {n : Value} (h : numeral.value? = some n) :
    n.IsNumber := by
  have hfloat (h : numeral.float? = some n) : n.IsNumber := by
    obtain ⟨f, -, rfl⟩ := Option.map_eq_some_iff.1 h
    exact .float _
  have hint (m : Int) (h : some (.int m) = some n) : n.IsNumber := by
    cases h
    exact .int m
  simp only [Numeral.value?] at h
  split_ifs at h
  · exact hint _ h
  · exact hfloat h
  · exact hint _ h
  · exact hfloat h
  · exact hfloat h

namespace Token

theorem plain_number (numeral : Numeral) : Plain (.number numeral.value?) := by
  cases h : numeral.value? with
  | none => trivial
  | some n => exact isNumber_of_value? h

theorem plain_of_next? {text rest : List (Option Char)} {token : Token}
    (h : next? text = some (token, rest)) : token.Plain := by
  unfold next? at h
  split at h
  case h_1 | h_2 | h_3 | h_4 | h_5 | h_6 =>
    cases h
    trivial
  case h_7 | h_8 | h_9 =>
    obtain ⟨_, -, h⟩ := Option.map_eq_some_iff.1 h
    cases h
    trivial
  case h_10 =>
    obtain ⟨_, -, h⟩ := Option.bind_eq_some_iff.1 h
    cases h
    trivial
  case h_11 | h_12 =>
    obtain ⟨⟨numeral, _⟩, -, h⟩ := Option.bind_eq_some_iff.1 h
    cases h
    exact plain_number numeral

theorem plain_of_mem_scanFor {steps : Nat} {text : List (Option Char)} :
    ∀ token ∈ scanFor steps text, token.Plain := by
  fun_induction scanFor steps text with
  | case1 | case2 => simp
  | case3 | case6 => simp [Plain]
  | case4 _ _ _ _ ih => exact ih
  | case5 _ _ _ _ _ _ h ih => exact List.forall_mem_cons.2 ⟨plain_of_next? h, ih⟩

end Token

/-! ## Putting tokens together -/

namespace Tree

/-- Tokens that have no number that is an array or a table. -/
def AllPlain (tokens : List Token) : Prop := ∀ token ∈ tokens, token.Plain

/-- What is left over after some tokens, if anything, is plain. -/
def RestPlain (rest : Option (List Token)) : Prop := ∀ tokens, rest = some tokens → AllPlain tokens

/-- With some number of steps, plain tokens are put together to plain trees. -/
structure PlainFor (steps : Nat) : Prop where
  value {tokens : List Token} (h : AllPlain tokens) :
    (value steps tokens).1.Plain ∧ RestPlain (value steps tokens).2
  items {tokens : List Token} (h : AllPlain tokens) :
    (∀ t ∈ (items steps tokens).1, t.Plain) ∧ RestPlain (items steps tokens).2
  entries {tokens : List Token} (h : AllPlain tokens) :
    (∀ e ∈ (entries steps tokens).1, e.2.Plain) ∧ RestPlain (entries steps tokens).2

theorem RestPlain.some {tokens : List Token} (h : AllPlain tokens) : RestPlain (some tokens) := by
  rintro _ ⟨⟩
  exact h

theorem RestPlain.none : RestPlain none := by
  rintro _ ⟨⟩

theorem AllPlain.tail {token : Token} {tokens : List Token} (h : AllPlain (token :: tokens)) :
    AllPlain tokens := (List.forall_mem_cons.1 h).2

namespace PlainFor

variable {steps : Nat} {tokens : List Token}

theorem value_succ (ih : PlainFor steps) (h : AllPlain tokens) :
    (Tree.value (steps + 1) tokens).1.Plain ∧ RestPlain (Tree.value (steps + 1) tokens).2 := by
  rw [Tree.value.eq_def]
  simp only
  split
  · exact ⟨.null, .some h.tail⟩
  · exact ⟨.bool _, .some h.tail⟩
  · exact ⟨.number (h _ List.mem_cons_self), .some h.tail⟩
  · exact ⟨.unreadable, .some h.tail⟩
  · exact ⟨.string _, .some h.tail⟩
  · exact ⟨.unreadable, .some h.tail⟩
  · exact ⟨.array (by simp), .some h.tail.tail⟩
  · obtain ⟨hitems, hrest⟩ := ih.items h.tail
    exact ⟨.array hitems, hrest⟩
  · exact ⟨.table (by simp), .some h.tail.tail⟩
  · obtain ⟨hentries, hrest⟩ := ih.entries h.tail
    exact ⟨.table hentries, hrest⟩
  · exact ⟨.broken, .none⟩

theorem items_succ (ih : PlainFor steps) (h : AllPlain tokens) :
    (∀ t ∈ (Tree.items (steps + 1) tokens).1, t.Plain) ∧
      RestPlain (Tree.items (steps + 1) tokens).2 := by
  obtain ⟨hvalue, hrest⟩ := ih.value h
  rw [Tree.items.eq_def]
  simp only
  split
  · next heq =>
    rw [heq] at hvalue hrest
    obtain ⟨hitems, hmore⟩ := ih.items (hrest _ rfl).tail
    exact ⟨List.forall_mem_cons.2 ⟨hvalue, hitems⟩, hmore⟩
  · next heq =>
    rw [heq] at hvalue hrest
    exact ⟨by simpa using hvalue, .some (hrest _ rfl).tail⟩
  · next heq =>
    rw [heq] at hvalue
    exact ⟨by simpa using ⟨hvalue, .broken⟩, .none⟩
  · next heq =>
    rw [heq] at hvalue
    exact ⟨by simpa using hvalue, .none⟩

theorem entries_succ (ih : PlainFor steps) (h : AllPlain tokens) :
    (∀ e ∈ (Tree.entries (steps + 1) tokens).1, e.2.Plain) ∧
      RestPlain (Tree.entries (steps + 1) tokens).2 := by
  rw [Tree.entries.eq_def]
  simp only
  split
  · obtain ⟨hvalue, hrest⟩ := ih.value h.tail.tail
    split
    · next heq =>
      rw [heq] at hvalue hrest
      obtain ⟨hentries, hmore⟩ := ih.entries (hrest _ rfl).tail
      exact ⟨List.forall_mem_cons.2 ⟨hvalue, hentries⟩, hmore⟩
    · next heq =>
      rw [heq] at hvalue hrest
      exact ⟨by simpa using hvalue, .some (hrest _ rfl).tail⟩
    · next heq =>
      rw [heq] at hvalue
      exact ⟨by simpa using ⟨hvalue, .broken⟩, .none⟩
    · next heq =>
      rw [heq] at hvalue
      exact ⟨by simpa using hvalue, .none⟩
  · exact ⟨by simpa using .broken, .none⟩
  · exact ⟨by simpa using .broken, .none⟩

end PlainFor

theorem plainFor (steps : Nat) : PlainFor steps := by
  induction steps with
  | zero =>
    exact ⟨fun _ => ⟨.broken, .none⟩, fun _ => ⟨by simpa [items] using .broken, .none⟩,
      fun _ => ⟨by simpa [entries] using .broken, .none⟩⟩
  | succ steps ih => exact ⟨ih.value_succ, ih.items_succ, ih.entries_succ⟩

end Tree

/-- The tree of a text is plain. -/
theorem Document.plain_ofString (text : String) : (Document.ofString text).root.Plain := by
  have htokens : Tree.AllPlain (Token.scan (text.toList.map some)) := Token.plain_of_mem_scanFor
  obtain ⟨hroot, -⟩ :=
    (Tree.plainFor (2 * (Token.scan (text.toList.map some)).length + 2)).value htokens
  rw [ofString, ofChars, ofTokens]
  split
  · next heq => rwa [heq] at hroot
  · next heq => rwa [heq] at hroot

end Json

end TestSelection
