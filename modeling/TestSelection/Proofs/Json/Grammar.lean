import TestSelection.Json.Document
import TestSelection.Json.Printer

/-!
# The grammar of JSON

`SpellsTree text t` says that a text is JSON and stands for a tree. It is given by the rules of the
notation and not by a reader: literals, numbers, strings, and arrays and tables with commas between
their elements, nested to any depth. White space may stand around each element, around the colon of
an entry, and around the whole (`SpellsDocument`).

A string may have escapes that stand for no character, and a number may be too large. Such a scalar
is JSON, and stands for a tree that is unreadable.
-/

namespace TestSelection.Json

/-- White space. -/
def Blank (text : List Char) : Prop := ∀ c ∈ text, isSpace c = true

/-! ## Strings -/

/-- The characters between the quotes of a string, and the pieces that they stand for. -/
inductive SpellsString : List Char → List Piece → Prop
  | nil : SpellsString [] []
  | char {c : Char} {text : List Char} {pieces : List Piece} (hquote : c ≠ '"')
      (hbackslash : c ≠ '\\') (hlow : 0x20 ≤ c.toNat) (h : SpellsString text pieces) :
      SpellsString (c :: text) (.char c :: pieces)
  | letter {letter c : Char} {text : List Char} {pieces : List Piece}
      (hletter : unescape? letter = some c) (h : SpellsString text pieces) :
      SpellsString ('\\' :: letter :: text) (.char c :: pieces)
  | unit {a b c d : Char} {n : Nat} {text : List Char} {pieces : List Piece}
      (hn : hexValue4? a b c d = some n) (h : SpellsString text pieces) :
      SpellsString ('\\' :: 'u' :: a :: b :: c :: d :: text) (.unit n :: pieces)

/-- The string of some pieces, unless they stand for none. -/
def stringOf? (pieces : List Piece) : Option String := (assemble pieces).map String.ofList

/-! ## Numbers -/

/-- Digits, and at least one. -/
structure SpellsDigits (text : List Char) (digits : List Nat) : Prop where
  text_eq : text = digits.map Nat.digitChar
  ne_nil : digits ≠ []
  lt_ten : ∀ d ∈ digits, d < 10

/-- A point with digits, or nothing. -/
inductive SpellsFraction : List Char → Option (List Nat) → Prop
  | none : SpellsFraction [] none
  | some {text : List Char} {digits : List Nat} (h : SpellsDigits text digits) :
      SpellsFraction ('.' :: text) (some digits)

/-- The sign of an exponent, and whether it makes the exponent negative. -/
inductive SpellsSign : List Char → Bool → Prop
  | none : SpellsSign [] false
  | plus : SpellsSign ['+'] false
  | minus : SpellsSign ['-'] true

/-- A mark with a sign and digits, or nothing. -/
inductive SpellsExponent : List Char → Option (Bool × List Nat) → Prop
  | none : SpellsExponent [] none
  | some {mark : Char} {sign text : List Char} {negative : Bool} {digits : List Nat}
      (hmark : mark = 'e' ∨ mark = 'E') (hsign : SpellsSign sign negative)
      (h : SpellsDigits text digits) :
      SpellsExponent (mark :: (sign ++ text)) (some (negative, digits))

/-- The minus sign of a negative number. -/
def minusText (negative : Bool) : List Char := if negative then ['-'] else []

/-- A number, with no zero in front of other digits. -/
inductive SpellsNumber : List Char → Numeral → Prop
  | intro {n : Numeral} {whole fraction exponent : List Char}
      (hwhole : SpellsDigits whole n.whole) (hzero : n.whole.head? = some 0 → n.whole = [0])
      (hfraction : SpellsFraction fraction n.fraction)
      (hexponent : SpellsExponent exponent n.exponent) :
      SpellsNumber (minusText n.negative ++ (whole ++ (fraction ++ exponent))) n

/-! ## Trees -/

/-- A text for a tree, with white space around it. -/
structure Item where
  before : List Char
  text : List Char
  after : List Char
  tree : Tree
  blank_before : Blank before
  blank_after : Blank after

/-- What stands between two commas of an array. -/
def Item.full (i : Item) : List Char := i.before ++ (i.text ++ i.after)

/-- A key in quotes with white space around it, and an item. -/
structure Entry extends Item where
  gap : List Char
  key : List Char
  pieces : List Piece
  colon : List Char
  blank_gap : Blank gap
  spells_key : SpellsString key pieces
  blank_colon : Blank colon

/-- What stands between two commas of a table. -/
def Entry.full (e : Entry) : List Char :=
  e.gap ++ ('"' :: (e.key ++ '"' :: (e.colon ++ ':' :: e.toItem.full)))

/-- The entry of a tree. -/
def Entry.entry (e : Entry) : Option String × Tree := (stringOf? e.pieces, e.tree)

/-- The tree of a string that may have no value. -/
def Tree.ofString? (s : Option String) : Tree := s.elim .unreadable .string

/-- The tree of a number that may have no value. -/
def Tree.ofNumber? (n : Option Value) : Tree := n.elim .unreadable .number

/-- The text is JSON without white space around it, and stands for the tree. -/
inductive SpellsTree : List Char → Tree → Prop
  | null : SpellsTree nullText .null
  | bool (b : Bool) : SpellsTree (boolText b) (.bool b)
  | number {text : List Char} {n : Numeral} (h : SpellsNumber text n) :
      SpellsTree text (.ofNumber? n.value?)
  | string {text : List Char} {pieces : List Piece} (h : SpellsString text pieces) :
      SpellsTree ('"' :: (text ++ ['"'])) (.ofString? (stringOf? pieces))
  | emptyArray {blank : List Char} (h : Blank blank) :
      SpellsTree ('[' :: (blank ++ [']'])) (.array [])
  | array {items : List Item} (hne : items ≠ []) (h : ∀ i ∈ items, SpellsTree i.text i.tree) :
      SpellsTree ('[' :: ([','].intercalate (items.map Item.full) ++ [']']))
        (.array (items.map Item.tree))
  | emptyTable {blank : List Char} (h : Blank blank) :
      SpellsTree ('\x7b' :: (blank ++ ['\x7d'])) (.table [])
  | table {entries : List Entry} (hne : entries ≠ [])
      (h : ∀ e ∈ entries, SpellsTree e.text e.tree) :
      SpellsTree ('\x7b' :: ([','].intercalate (entries.map Entry.full) ++ ['\x7d']))
        (.table (entries.map Entry.entry))

/-- The text is JSON, and stands for the tree. -/
def SpellsDocument (text : String) (t : Tree) : Prop :=
  ∃ i : Item, text.toList = i.full ∧ i.tree = t ∧ SpellsTree i.text t

end TestSelection.Json
