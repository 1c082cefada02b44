import TestSelection.Proofs.Json.Document

/-!
# Texts that are accepted

**Theorem (`spellsDocument_iff`).** The texts that are read to their end are those that are JSON,
and a text that is JSON stands for the tree that is read.

That JSON is accepted is `SpellsDocument.ofString_eq`. The other direction takes the same two steps.
A text is lexed into its tokens (`lexed_scan`): with white space between them, each token spelled by
its own part of the text, and possibly broken off in the end. And where tokens are put together to a
tree and the rest of the tokens is known, the text breaks off nowhere in between, and the parts are
put together along the rules of the grammar (`Tree.spells_value`).
-/

namespace TestSelection.Json

/-- The text starts with a part of some kind, and the rest comes after it. -/
def Starts (P : List Char → Prop) (text : List Char) (rest : List (Option Char)) : Prop :=
  ∃ part more, P part ∧ text = part ++ more ∧ rest = more.map some

theorem Starts.imp {P Q : List Char → Prop} {text : List Char} {rest : List (Option Char)}
    (h : Starts P text rest) (hPQ : ∀ part, P part → Q part) : Starts Q text rest := by
  obtain ⟨part, more, hpart, htext, hrest⟩ := h
  exact ⟨part, more, hPQ part hpart, htext, hrest⟩

variable {text : List Char} {rest : List (Option Char)}

/-! ## Words and strings -/

theorem starts_of_dropWord {word : List Char} (h : dropWord word (text.map some) = some rest) :
    Starts (· = word) text rest := by
  induction word generalizing text with
  | nil =>
    cases h
    exact ⟨[], text, rfl, rfl, rfl⟩
  | cons c word ih =>
    cases text with
    | nil => cases h
    | cons d text =>
      rw [List.map_cons, dropWord] at h
      split_ifs at h with hc
      obtain ⟨_, more, rfl, rfl, rfl⟩ := ih h
      exact ⟨_, more, rfl, by rw [hc]; rfl, rfl⟩

theorem map_some_eq_cons_iff {c : Char} :
    text.map some = some c :: rest ↔ ∃ more, text = c :: more ∧ more.map some = rest := by
  rw [List.map_eq_cons_iff]
  constructor
  · rintro ⟨_, more, rfl, ⟨⟩, h⟩
    exact ⟨more, rfl, h⟩
  · rintro ⟨more, rfl, h⟩
    exact ⟨c, more, rfl, rfl, h⟩

theorem starts_of_scanString {pieces : List Piece}
    (h : scanString (text.map some) = some (pieces, rest)) :
    Starts (fun part => ∃ inner, part = inner ++ ['"'] ∧ SpellsString inner pieces) text rest := by
  generalize hinput : text.map some = input at h
  -- A piece in front of the rest of a string makes a string with the piece in front.
  have hpiece (front : List Char) {piece : Piece} {more : List Char} {pieces : List Piece}
      (hspells : ∀ inner, SpellsString inner pieces →
        SpellsString (front ++ inner) (piece :: pieces))
      (hmore : Starts (fun part => ∃ inner, part = inner ++ ['"'] ∧ SpellsString inner pieces)
        more rest) :
      Starts (fun part => ∃ inner, part = inner ++ ['"'] ∧ SpellsString inner (piece :: pieces))
        (front ++ more) rest := by
    obtain ⟨_, after, ⟨inner, rfl, hinner⟩, rfl, rfl⟩ := hmore
    exact ⟨_, after, ⟨front ++ inner, rfl, hspells inner hinner⟩, by simp, rfl⟩
  fun_induction scanString input generalizing text pieces with
  | case1 =>
    obtain ⟨more, rfl, rfl⟩ := map_some_eq_cons_iff.1 hinput
    cases h
    exact ⟨['"'], more, ⟨[], rfl, .nil⟩, rfl, rfl⟩
  | case2 a b c d input ih =>
    simp only [map_some_eq_cons_iff] at hinput
    obtain ⟨_, rfl, _, rfl, _, rfl, _, rfl, _, rfl, more, rfl, rfl⟩ := hinput
    simp only [Option.bind_eq_bind, Option.bind_eq_some_iff, Option.pure_def, Option.some.injEq,
      Prod.mk.injEq, Prod.exists] at h
    obtain ⟨n, hn, pieces, _, hscan, rfl, rfl⟩ := h
    exact hpiece ['\\', 'u', a, b, c, d] (fun _ => .unit hn) (ih rfl hscan)
  | case3 c input _ ih =>
    simp only [map_some_eq_cons_iff] at hinput
    obtain ⟨_, rfl, more, rfl, rfl⟩ := hinput
    simp only [Option.bind_eq_bind, Option.bind_eq_some_iff, Option.pure_def, Option.some.injEq,
      Prod.mk.injEq, Prod.exists] at h
    obtain ⟨d, hd, pieces, _, hscan, rfl, rfl⟩ := h
    exact hpiece ['\\', c] (fun _ => .letter hd) (ih rfl hscan)
  | case4 => cases h
  | case5 => cases h
  | case6 c input hquote _ _ hbackslash hlow ih =>
    obtain ⟨more, rfl, rfl⟩ := map_some_eq_cons_iff.1 hinput
    simp only [Option.bind_eq_bind, Option.bind_eq_some_iff, Option.pure_def, Option.some.injEq,
      Prod.mk.injEq, Prod.exists] at h
    obtain ⟨pieces, _, hscan, rfl, rfl⟩ := h
    exact hpiece [c] (fun _ => .char hquote hbackslash (Nat.le_of_not_lt hlow))
      (ih rfl hscan)
  | case7 input ih =>
    obtain ⟨_, _, _, hnone, _⟩ := List.map_eq_cons_iff.1 hinput
    cases hnone
  | case8 => cases h

/-! ## Numbers -/

theorem eq_digitChar {c : Char} {d : Nat} (h : digit? (some c) = some d) :
    c = Nat.digitChar d ∧ d < 10 := by
  rw [digit?] at h
  split_ifs at h with hc
  obtain ⟨hlow, hhigh⟩ := hc
  have hlow : 48 ≤ c.toNat := hlow
  have hhigh : c.toNat ≤ 57 := hhigh
  have hzero : '0'.toNat = 48 := rfl
  cases h
  refine ⟨Char.toNat_inj.1 ?_, by omega⟩
  rw [Nat.toNat_digitChar_of_lt_ten (by omega)]
  omega

/-- The digits in front of a text, and what comes after them. -/
theorem exists_scanDigits (text : List Char) :
    ∃ ds more, scanDigits (text.map some) = (ds, more.map some) ∧
      text = ds.map Nat.digitChar ++ more ∧ ∀ d ∈ ds, d < 10 := by
  induction text with
  | nil => exact ⟨[], [], rfl, rfl, List.forall_mem_nil _⟩
  | cons c text ih =>
    obtain ⟨ds, more, hscan, rfl, hds⟩ := ih
    cases hc : digit? (some c) with
    | none => exact ⟨[], _, by rw [List.map_cons, scanDigits, hc], rfl, List.forall_mem_nil _⟩
    | some d =>
      obtain ⟨rfl, hd⟩ := eq_digitChar hc
      exact ⟨d :: ds, more, by rw [List.map_cons, scanDigits, hc, hscan], rfl,
        List.forall_mem_cons.2 ⟨hd, hds⟩⟩

theorem starts_of_scanWhole {ds : List Nat} (h : scanWhole (text.map some) = some (ds, rest)) :
    Starts (SpellsDigits · ds) text rest ∧ (ds.head? = some 0 → ds = [0]) := by
  obtain ⟨ds', more, hscan, rfl, hds⟩ := exists_scanDigits text
  rw [scanWhole, hscan] at h
  split at h
  · cases h
  · cases h
  · next hnil hzero heq =>
    cases heq
    cases h
    refine ⟨⟨_, more, ⟨rfl, hnil, hds⟩, rfl, rfl⟩, fun hhead => ?_⟩
    obtain ⟨tail, rfl⟩ := List.head?_eq_some_iff.1 hhead
    cases tail with
    | nil => rfl
    | cons d tail => exact absurd rfl (hzero d tail)

theorem starts_of_scanFraction {fraction : Option (List Nat)}
    (h : scanFraction (text.map some) = some (fraction, rest)) :
    Starts (SpellsFraction · fraction) text rest := by
  unfold scanFraction at h
  split at h
  · next input hinput =>
    obtain ⟨text, rfl, rfl⟩ := map_some_eq_cons_iff.1 hinput
    obtain ⟨ds, more, hscan, rfl, hds⟩ := exists_scanDigits text
    rw [hscan] at h
    cases ds with
    | nil => cases h
    | cons d ds =>
      cases h
      exact ⟨_, more, .some ⟨rfl, by simp, hds⟩, rfl, rfl⟩
  · cases h
    exact ⟨[], text, .none, rfl, rfl⟩

theorem exists_scanExponentSign (text : List Char) :
    ∃ sign negative more, scanExponentSign (text.map some) = (negative, more.map some) ∧
      text = sign ++ more ∧ SpellsSign sign negative := by
  unfold scanExponentSign
  split
  · next input hinput =>
    obtain ⟨more, rfl, rfl⟩ := map_some_eq_cons_iff.1 hinput
    exact ⟨['-'], true, more, rfl, rfl, .minus⟩
  · next input hinput =>
    obtain ⟨more, rfl, rfl⟩ := map_some_eq_cons_iff.1 hinput
    exact ⟨['+'], false, more, rfl, rfl, .plus⟩
  · exact ⟨[], false, text, rfl, rfl, .none⟩

theorem starts_of_scanExponent {exponent : Option (Bool × List Nat)}
    (h : scanExponent (text.map some) = some (exponent, rest)) :
    Starts (SpellsExponent · exponent) text rest := by
  unfold scanExponent at h
  split at h
  · next mark input hinput =>
    obtain ⟨text, rfl, rfl⟩ := map_some_eq_cons_iff.1 hinput
    split_ifs at h with hmark
    · obtain ⟨sign, negative, digits, hsign, rfl, hspells⟩ := exists_scanExponentSign text
      obtain ⟨ds, more, hscan, rfl, hds⟩ := exists_scanDigits digits
      rw [hsign] at h
      dsimp only at h
      rw [hscan] at h
      cases ds with
      | nil => cases h
      | cons d ds =>
        cases h
        exact ⟨_, more, .some hmark hspells ⟨rfl, by simp, hds⟩, by simp, rfl⟩
    · cases h
      exact ⟨[], _, .none, rfl, rfl⟩
  · cases h
    exact ⟨[], text, .none, rfl, rfl⟩

theorem starts_of_scanNumber {negative : Bool} {n : Numeral}
    (h : scanNumber negative (text.map some) = some (n, rest)) :
    Starts (fun part => SpellsNumber (minusText negative ++ part) n) text rest := by
  simp only [scanNumber, Option.bind_eq_bind, Option.bind_eq_some_iff, Option.pure_def,
    Option.some.injEq, Prod.mk.injEq, Prod.exists] at h
  obtain ⟨ds, _, hscan, fraction, _, hscan', exponent, _, hscan'', rfl, rfl⟩ := h
  obtain ⟨⟨whole, _, hwhole, rfl, rfl⟩, hzero⟩ := starts_of_scanWhole hscan
  obtain ⟨_, _, hfraction, rfl, rfl⟩ := starts_of_scanFraction hscan'
  obtain ⟨_, more, hexponent, rfl, rfl⟩ := starts_of_scanExponent hscan''
  have hnumber : SpellsNumber _ ⟨negative, ds, fraction, exponent⟩ :=
    .intro hwhole hzero hfraction hexponent
  exact ⟨_, more, hnumber, by simp, rfl⟩

/-! ## Tokens -/

/-- The text of a token. -/
inductive SpellsToken : List Char → Token → Prop
  | openArray : SpellsToken ['['] .openArray
  | closeArray : SpellsToken [']'] .closeArray
  | openTable : SpellsToken ['\x7b'] .openTable
  | closeTable : SpellsToken ['\x7d'] .closeTable
  | comma : SpellsToken [','] .comma
  | colon : SpellsToken [':'] .colon
  | null : SpellsToken nullText .null
  | bool (b : Bool) : SpellsToken (boolText b) (.bool b)
  | number {text : List Char} {n : Numeral} {value : Option Value} (h : SpellsNumber text n)
      (hvalue : n.value? = value) : SpellsToken text (.number value)
  | string {text : List Char} {pieces : List Piece} {value : Option String}
      (h : SpellsString text pieces) (hvalue : stringOf? pieces = value) :
      SpellsToken ('"' :: (text ++ ['"'])) (.string value)

/-- A character in front of a part. -/
theorem Starts.cons {P Q : List Char → Prop} {c : Char} (h : Starts P text rest)
    (hPQ : ∀ part, P part → Q (c :: part)) : Starts Q (c :: text) rest := by
  obtain ⟨part, more, hpart, rfl, rfl⟩ := h
  exact ⟨c :: part, more, hPQ part hpart, rfl, rfl⟩

theorem starts_of_next? {token : Token} (h : Token.next? (text.map some) = some (token, rest)) :
    Starts (SpellsToken · token) text rest := by
  have hchar {c : Char} {input : List (Option Char)} (hinput : text.map some = some c :: input)
      (htoken : SpellsToken [c] token) (hrest : input = rest) :
      Starts (SpellsToken · token) text rest := by
    obtain ⟨more, rfl, rfl⟩ := map_some_eq_cons_iff.1 hinput
    exact ⟨[c], more, htoken, rfl, hrest.symm⟩
  have hword {c : Char} {word : List Char} {input : List (Option Char)}
      (hinput : text.map some = some c :: input) (htoken : SpellsToken (c :: word) token)
      (hrest : dropWord word input = some rest) : Starts (SpellsToken · token) text rest := by
    obtain ⟨more, rfl, rfl⟩ := map_some_eq_cons_iff.1 hinput
    refine (starts_of_dropWord hrest).cons ?_
    rintro _ rfl
    exact htoken
  unfold Token.next? at h
  split at h
  · next hinput => cases h; exact hchar hinput .openArray rfl
  · next hinput => cases h; exact hchar hinput .closeArray rfl
  · next hinput => cases h; exact hchar hinput .openTable rfl
  · next hinput => cases h; exact hchar hinput .closeTable rfl
  · next hinput => cases h; exact hchar hinput .comma rfl
  · next hinput => cases h; exact hchar hinput .colon rfl
  · next hinput =>
    obtain ⟨_, hrest, ⟨⟩⟩ := Option.map_eq_some_iff.1 h
    exact hword hinput .null hrest
  · next hinput =>
    obtain ⟨_, hrest, ⟨⟩⟩ := Option.map_eq_some_iff.1 h
    exact hword hinput (.bool true) hrest
  · next hinput =>
    obtain ⟨_, hrest, ⟨⟩⟩ := Option.map_eq_some_iff.1 h
    exact hword hinput (.bool false) hrest
  · next hinput =>
    obtain ⟨more, rfl, rfl⟩ := map_some_eq_cons_iff.1 hinput
    obtain ⟨⟨pieces, _⟩, hscan, ⟨⟩⟩ := Option.bind_eq_some_iff.1 h
    refine (starts_of_scanString hscan).cons ?_
    rintro _ ⟨inner, rfl, hinner⟩
    exact .string hinner rfl
  · next hinput =>
    obtain ⟨more, rfl, rfl⟩ := map_some_eq_cons_iff.1 hinput
    obtain ⟨⟨n, _⟩, hscan, ⟨⟩⟩ := Option.bind_eq_some_iff.1 h
    exact (starts_of_scanNumber hscan).cons fun _ hnumber => .number hnumber rfl
  · obtain ⟨⟨n, _⟩, hscan, ⟨⟩⟩ := Option.bind_eq_some_iff.1 h
    exact (starts_of_scanNumber hscan).imp fun _ hnumber => .number hnumber rfl

theorem SpellsToken.ne_nil {token : Token} (h : SpellsToken text token) : text ≠ [] := by
  cases h with
  | bool b => cases b <;> simp [boolText]
  | number h =>
    obtain ⟨hwhole, -, -, -⟩ := h
    obtain ⟨d, more, -, rfl⟩ := hwhole.exists_head
    simp
  | _ => simp [nullText]

/-- The text of a number with or without a value is that of a tree. -/
theorem SpellsToken.spells_number {value : Option Value} (h : SpellsToken text (.number value)) :
    SpellsTree text (.ofNumber? value) := by
  cases h with
  | number h hvalue =>
    rw [← hvalue]
    exact .number h

/-- The text of a string with or without a value is that of a tree. -/
theorem SpellsToken.spells_string {value : Option String} (h : SpellsToken text (.string value)) :
    SpellsTree text (.ofString? value) := by
  cases h with
  | string h hvalue =>
    rw [← hvalue]
    exact .string h

/-- A text and its tokens, with white space between them. Where the text breaks off, anything may
follow. -/
inductive Lexed : List Char → List Token → Prop
  | nil : Lexed [] []
  | space {c : Char} {text : List Char} {tokens : List Token} (hc : isSpace c = true)
      (h : Lexed text tokens) : Lexed (c :: text) tokens
  | token {part more : List Char} {token : Token} {tokens : List Token}
      (hpart : SpellsToken part token) (h : Lexed more tokens) :
      Lexed (part ++ more) (token :: tokens)
  | broken (text : List Char) : Lexed text [.broken]

theorem lexed_scanFor {steps : Nat} {text : List Char} (h : text.length ≤ steps) :
    Lexed text (Token.scanFor steps (text.map some)) := by
  induction steps generalizing text with
  | zero =>
    cases List.eq_nil_of_length_eq_zero (Nat.le_zero.1 h)
    exact .nil
  | succ steps ih =>
    cases text with
    | nil => exact .nil
    | cons c text =>
      rw [List.map_cons, Token.scanFor]
      split_ifs with hc
      · exact .space hc (ih (Nat.le_of_succ_le_succ h))
      · split
        · next token rest hnext =>
          rw [← List.map_cons] at hnext
          obtain ⟨part, more, hpart, htext, rfl⟩ := starts_of_next? hnext
          have hlength := congrArg List.length htext
          have hpos := List.length_pos_iff.2 hpart.ne_nil
          rw [List.length_append] at hlength
          rw [htext]
          exact .token hpart (ih (by omega))
        · exact .broken _

namespace Lexed

variable {tokens : List Token}

/-- White space at the end of a text. -/
theorem blank {text : List Char} (h : Lexed text []) : Blank text := by
  generalize hnil : [] = tokens at h
  induction h with
  | nil => exact List.forall_mem_nil _
  | space hc _ ih => exact List.forall_mem_cons.2 ⟨hc, ih hnil⟩
  | token => cases hnil
  | broken => cases hnil

/-- The first token of a text stands behind white space. -/
theorem exists_token {text : List Char} {token : Token} (h : Lexed text (token :: tokens))
    (hbroken : token ≠ .broken) :
    ∃ before part more, Blank before ∧ SpellsToken part token ∧ Lexed more tokens ∧
      text = before ++ (part ++ more) := by
  generalize hcons : token :: tokens = all at h
  induction h with
  | nil => cases hcons
  | @space c text _ hc _ ih =>
    obtain ⟨before, part, more, hbefore, hpart, hmore, rfl⟩ := ih hcons
    exact ⟨c :: before, part, more, List.forall_mem_cons.2 ⟨hc, hbefore⟩, hpart, hmore, rfl⟩
  | @token part more _ _ hpart hmore =>
    cases hcons
    exact ⟨[], part, more, List.forall_mem_nil _, hpart, hmore, rfl⟩
  | broken =>
    cases hcons
    exact absurd rfl hbroken

end Lexed

/-! ## Trees -/

namespace Tree

/-- What is read as a value stands behind white space. -/
def SpellsValue (text : List Char) (t : Tree) (rest : List Token) : Prop :=
  ∃ before part more, Blank before ∧ SpellsTree part t ∧ Lexed more rest ∧
    text = before ++ (part ++ more)

/-- What is read as items stands in front of a closing bracket. -/
def SpellsItems (text : List Char) (ts : List Tree) (rest : List Token) : Prop :=
  ∃ (items : List Item) (more : List Char), items ≠ [] ∧ items.map Item.tree = ts ∧
    (∀ i ∈ items, SpellsTree i.text i.tree) ∧ Lexed more rest ∧
      text = [','].intercalate (items.map Item.full) ++ ']' :: more

/-- What is read as entries stands in front of a closing brace. -/
def SpellsEntries (text : List Char) (es : List (Option String × Tree)) (rest : List Token) :
    Prop :=
  ∃ (entries : List Entry) (more : List Char), entries ≠ [] ∧ entries.map Entry.entry = es ∧
    (∀ e ∈ entries, SpellsTree e.text e.tree) ∧ Lexed more rest ∧
      text = [','].intercalate (entries.map Entry.full) ++ '\x7d' :: more

/-- The reader of values, items and entries has read JSON where it got to the end. -/
structure Reads (steps : Nat) : Prop where
  value : ∀ {tokens t rest text}, Tree.value steps tokens = (t, some rest) → Lexed text tokens →
    SpellsValue text t rest
  items : ∀ {tokens ts rest text}, Tree.items steps tokens = (ts, some rest) → Lexed text tokens →
    SpellsItems text ts rest
  entries : ∀ {tokens es rest text}, Tree.entries steps tokens = (es, some rest) →
    Lexed text tokens → SpellsEntries text es rest

section

variable {steps : Nat} {tokens rest : List Token} {text : List Char}

theorem reads_value (ih : Reads steps) {t : Tree}
    (h : Tree.value (steps + 1) tokens = (t, some rest)) (htext : Lexed text tokens) :
    SpellsValue text t rest := by
  -- A token that stands for a tree by itself.
  have hscalar {token : Token} {t : Tree} (htext : Lexed text (token :: rest))
      (hbroken : token ≠ .broken) (htree : ∀ part, SpellsToken part token → SpellsTree part t) :
      SpellsValue text t rest := by
    obtain ⟨before, part, more, hbefore, hpart, hmore, rfl⟩ := htext.exists_token hbroken
    exact ⟨before, part, more, hbefore, htree part hpart, hmore, rfl⟩
  unfold value at h
  split at h
  · cases h
    refine hscalar htext (by simp) fun part hpart => ?_
    cases hpart with
    | null => exact .null
  · cases h
    refine hscalar htext (by simp) fun part hpart => ?_
    cases hpart with
    | bool => exact .bool _
  · cases h
    exact hscalar htext (by simp) fun _ => SpellsToken.spells_number
  · cases h
    exact hscalar htext (by simp) fun _ => SpellsToken.spells_number
  · cases h
    exact hscalar htext (by simp) fun _ => SpellsToken.spells_string
  · cases h
    exact hscalar htext (by simp) fun _ => SpellsToken.spells_string
  · cases h
    obtain ⟨before, _, _, hbefore, ⟨⟩, hclose, rfl⟩ := htext.exists_token (by simp)
    obtain ⟨blank, _, more, hblank, ⟨⟩, hmore, rfl⟩ := hclose.exists_token (by simp)
    exact ⟨before, _, more, hbefore, .emptyArray hblank, hmore, by simp⟩
  · next tokens _ =>
    obtain ⟨before, _, _, hbefore, ⟨⟩, hitems, rfl⟩ := htext.exists_token (by simp)
    rcases hread : items steps tokens with ⟨ts, rest'⟩
    rw [hread] at h
    cases h
    obtain ⟨items, more, hne, rfl, hspells, hmore, rfl⟩ := ih.items hread hitems
    exact ⟨before, _, more, hbefore, .array hne hspells, hmore, by simp⟩
  · cases h
    obtain ⟨before, _, _, hbefore, ⟨⟩, hclose, rfl⟩ := htext.exists_token (by simp)
    obtain ⟨blank, _, more, hblank, ⟨⟩, hmore, rfl⟩ := hclose.exists_token (by simp)
    exact ⟨before, _, more, hbefore, .emptyTable hblank, hmore, by simp⟩
  · next tokens _ =>
    obtain ⟨before, _, _, hbefore, ⟨⟩, hentries, rfl⟩ := htext.exists_token (by simp)
    rcases hread : entries steps tokens with ⟨es, rest'⟩
    rw [hread] at h
    cases h
    obtain ⟨entries, more, hne, rfl, hspells, hmore, rfl⟩ := ih.entries hread hentries
    exact ⟨before, _, more, hbefore, .table hne hspells, hmore, by simp⟩
  · cases h

theorem reads_items (ih : Reads steps) {ts : List Tree}
    (h : Tree.items (steps + 1) tokens = (ts, some rest)) (htext : Lexed text tokens) :
    SpellsItems text ts rest := by
  unfold items at h
  split at h
  · next t rest' hvalue =>
    obtain ⟨before, part, _, hbefore, hpart, hcomma, rfl⟩ := ih.value hvalue htext
    obtain ⟨after, _, _, hafter, ⟨⟩, hitems, rfl⟩ := hcomma.exists_token (by simp)
    rcases hread : items steps rest' with ⟨ts', rest''⟩
    rw [hread] at h
    cases h
    obtain ⟨items, more, hne, rfl, hspells, hmore, rfl⟩ := ih.items hread hitems
    refine ⟨⟨before, part, after, t, hbefore, hafter⟩ :: items, more, by simp, rfl,
      List.forall_mem_cons.2 ⟨hpart, hspells⟩, hmore, ?_⟩
    rw [List.map_cons, List.intercalate_cons_of_ne_nil (by simpa using hne)]
    simp [Item.full]
  · next t rest' hvalue =>
    cases h
    obtain ⟨before, part, _, hbefore, hpart, hclose, rfl⟩ := ih.value hvalue htext
    obtain ⟨after, _, more, hafter, ⟨⟩, hmore, rfl⟩ := hclose.exists_token (by simp)
    refine ⟨[⟨before, part, after, t, hbefore, hafter⟩], more, by simp, rfl,
      List.forall_mem_singleton.2 hpart, hmore, ?_⟩
    simp [Item.full]
  · cases h
  · cases h

theorem reads_entries (ih : Reads steps) {es : List (Option String × Tree)}
    (h : Tree.entries (steps + 1) tokens = (es, some rest)) (htext : Lexed text tokens) :
    SpellsEntries text es rest := by
  unfold entries at h
  split at h
  · next key tokens =>
    obtain ⟨gap, _, _, hgap, hkey, hmark, rfl⟩ := htext.exists_token (by simp)
    obtain ⟨colon, _, _, hcolon, ⟨⟩, hvalue, rfl⟩ := hmark.exists_token (by simp)
    obtain _ | _ | _ | _ | _ | _ | _ | _ | _ | ⟨hkey, rfl⟩ := hkey
    split at h
    · next t tokens hread =>
      obtain ⟨before, part, _, hbefore, hpart, hcomma, rfl⟩ := ih.value hread hvalue
      obtain ⟨after, _, _, hafter, ⟨⟩, hentries, rfl⟩ := hcomma.exists_token (by simp)
      rcases hread : entries steps tokens with ⟨es', rest'⟩
      rw [hread] at h
      cases h
      obtain ⟨entries, more, hne, rfl, hspells, hmore, rfl⟩ := ih.entries hread hentries
      let entry : Entry :=
        ⟨⟨before, part, after, t, hbefore, hafter⟩, gap, _, _, colon, hgap, hkey, hcolon⟩
      refine ⟨entry :: entries, more, by simp, rfl,
        List.forall_mem_cons.2 ⟨hpart, hspells⟩, hmore, ?_⟩
      rw [List.map_cons, List.intercalate_cons_of_ne_nil (by simpa using hne)]
      simp [entry, Entry.full, Item.full]
    · next t tokens hread =>
      cases h
      obtain ⟨before, part, _, hbefore, hpart, hclose, rfl⟩ := ih.value hread hvalue
      obtain ⟨after, _, more, hafter, ⟨⟩, hmore, rfl⟩ := hclose.exists_token (by simp)
      let entry : Entry :=
        ⟨⟨before, part, after, t, hbefore, hafter⟩, gap, _, _, colon, hgap, hkey, hcolon⟩
      refine ⟨[entry], more, by simp, rfl, List.forall_mem_singleton.2 hpart, hmore, ?_⟩
      simp [entry, Entry.full, Item.full]
    · cases h
    · cases h
  · cases h
  · cases h

end

/-- Wherever the reader got to the end, it has read JSON. -/
theorem reads (steps : Nat) : Reads steps := by
  induction steps with
  | zero =>
    constructor
    · intro _ _ _ _ h
      cases h
    · intro _ _ _ _ h
      cases h
    · intro _ _ _ _ h
      cases h
  | succ steps ih => exact ⟨reads_value ih, reads_items ih, reads_entries ih⟩

end Tree

/-! ## Documents -/

/-- A text is read to its end, and as a tree, iff it is JSON and stands for the tree. -/
theorem spellsDocument_iff {text : String} {t : Tree} :
    SpellsDocument text t ↔ Document.ofString text = ⟨t, true⟩ := by
  refine ⟨SpellsDocument.ofString_eq, fun h => ?_⟩
  have htext : Lexed text.toList (Token.scan (text.toList.map some)) :=
    lexed_scanFor (List.length_map _).ge
  rw [Document.ofString, Document.ofChars, Document.ofTokens] at h
  split at h
  · next root hvalue =>
    cases h
    obtain ⟨before, part, after, hbefore, hpart, hafter, heq⟩ := (Tree.reads _).value hvalue htext
    exact ⟨⟨before, part, after, _, hbefore, hafter.blank⟩, heq, rfl, hpart⟩
  · cases h

end TestSelection.Json
