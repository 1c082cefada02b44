import Mathlib.Tactic.IntervalCases
import Mathlib.Tactic.SplitIfs
import TestSelection.Proofs.Json.Grammar

/-!
# Scanning JSON

A scalar that is spelled in a text is scanned as one token with the value of the scalar, whatever
follows it. Only a number needs to know where it ends (`Stops`): digits right behind it would belong
to it too.

`Scans text tokens rest` says that scanning a text gives some tokens and then goes on with the rest.
Such pieces of a scan are put together by `Scans.trans`. The scanner takes one step for each token
and is given one for each character, so steps never run out; `Scans` keeps track of that too.
-/

namespace TestSelection.Json

/-! ## Pieces of a scan -/

/-- Scanning the text gives the tokens, and then goes on with the rest. -/
def Scans (text : List (Option Char)) (tokens : List Token) (rest : List (Option Char)) : Prop :=
  ∀ steps, text.length ≤ steps →
    ∃ left, rest.length ≤ left ∧ Token.scanFor steps text = tokens ++ Token.scanFor left rest

namespace Scans

variable {text rest : List (Option Char)}

theorem refl (text : List (Option Char)) : Scans text [] text :=
  fun steps hsteps => ⟨steps, hsteps, rfl⟩

theorem trans {middle : List (Option Char)} {tokens more : List Token}
    (h : Scans text tokens middle) (h' : Scans middle more rest) :
    Scans text (tokens ++ more) rest := by
  intro steps hsteps
  obtain ⟨left, hleft, htext⟩ := h steps hsteps
  obtain ⟨left', hleft', hmiddle⟩ := h' left hleft
  exact ⟨left', hleft', by rw [htext, hmiddle, List.append_assoc]⟩

/-- A token at the start of a text is scanned in one step. -/
theorem token {c : Char} {token : Token} (hspace : isSpace c = false)
    (hnext : Token.next? (some c :: text) = some (token, rest))
    (hlength : rest.length ≤ text.length) : Scans (some c :: text) [token] rest := by
  intro steps hsteps
  cases steps with
  | zero => cases hsteps
  | succ steps =>
    refine ⟨steps, hlength.trans (Nat.le_of_succ_le_succ hsteps), ?_⟩
    simp only [Token.scanFor, hspace, Bool.false_eq_true, if_false, hnext]
    rfl

/-- White space gives no token. -/
theorem space {c : Char} (hspace : isSpace c = true) : Scans (some c :: rest) [] rest := by
  intro steps hsteps
  cases steps with
  | zero => cases hsteps
  | succ steps =>
    refine ⟨steps, Nat.le_of_succ_le_succ hsteps, ?_⟩
    rw [Token.scanFor, if_pos hspace]
    rfl

theorem blank {cs : List Char} (hspace : ∀ c ∈ cs, isSpace c = true) :
    Scans (cs.map some ++ rest) [] rest := by
  induction cs with
  | nil => exact refl rest
  | cons c cs ih =>
    obtain ⟨hc, hcs⟩ := List.forall_mem_cons.1 hspace
    exact (space hc).trans (ih hcs)

/-- What is scanned to the end of a text are its tokens. -/
theorem scan_eq {tokens : List Token} (h : Scans text tokens []) : Token.scan text = tokens := by
  obtain ⟨left, -, htext⟩ := h text.length le_rfl
  have hnil : Token.scanFor left [] = [] := by cases left <;> rfl
  rw [Token.scan, htext, hnil, List.append_nil]

end Scans

/-! ## Words -/

variable {rest : List (Option Char)}

theorem scans_null : Scans (nullText.map some ++ rest) [.null] rest :=
  .token rfl rfl (by simp; omega)

theorem scans_bool (b : Bool) : Scans ((boolText b).map some ++ rest) [.bool b] rest := by
  cases b with
  | true => exact .token rfl rfl (by simp; omega)
  | false => exact .token rfl rfl (by simp; omega)

/-! ## Strings -/

section

variable {rest' : List (Option Char)} {pieces : List Piece}

/-- A backslash and a letter are scanned as the character that the letter stands for. -/
theorem scanString_letter {letter c : Char} (hletter : unescape? letter = some c)
    (h : scanString rest = some (pieces, rest')) :
    scanString (some '\\' :: some letter :: rest) = some (.char c :: pieces, rest') := by
  have hu : letter ≠ 'u' := by
    rintro rfl
    cases hletter
  rw [scanString, hletter, h]
  · rfl
  · exact fun _ _ _ _ _ _ => hu

/-- Four digits are scanned as the number that they spell. -/
theorem scanString_unit {a b c d : Char} {n : Nat} (hn : hexValue4? a b c d = some n)
    (h : scanString rest = some (pieces, rest')) :
    scanString (some '\\' :: some 'u' :: some a :: some b :: some c :: some d :: rest) =
      some (.unit n :: pieces, rest') := by
  rw [scanString, hn, h]
  rfl

/-- Any other character is scanned as it stands. -/
theorem scanString_char {c : Char} (hquote : c ≠ '"') (hbackslash : c ≠ '\\')
    (hlow : 0x20 ≤ c.toNat) (h : scanString rest = some (pieces, rest')) :
    scanString (some c :: rest) = some (.char c :: pieces, rest') := by
  rw [scanString, if_neg (Nat.not_lt.2 hlow), h]
  · rfl
  · exact hquote
  · exact fun _ _ _ _ _ _ => hbackslash
  · exact fun _ _ _ => hbackslash
  · exact hbackslash

end

/-- The characters of a string are scanned up to its closing quote. -/
theorem scanString_of_spells {text : List Char} {pieces : List Piece}
    (h : SpellsString text pieces) :
    scanString (text.map some ++ some '"' :: rest) = some (pieces, rest) := by
  induction h with
  | nil => rw [List.map_nil, List.nil_append, scanString]
  | char hquote hbackslash hlow _ ih => exact scanString_char hquote hbackslash hlow ih
  | letter hletter _ ih => exact scanString_letter hletter ih
  | unit hn _ ih => exact scanString_unit hn ih

theorem scans_string {text : List Char} {pieces : List Piece} (h : SpellsString text pieces) :
    Scans (('"' :: (text ++ ['"'])).map some ++ rest) [.string (stringOf? pieces)] rest := by
  have htext : ('"' :: (text ++ ['"'])).map some ++ rest =
      some '"' :: (text.map some ++ some '"' :: rest) := by
    simp
  rw [htext]
  refine .token rfl ?_ (by simp; omega)
  rw [Token.next?, scanString_of_spells h]
  rfl

/-! ## Numbers -/

/-- What follows digits and is no digit. -/
def NoDigit (rest : List (Option Char)) : Prop := ∀ c ∈ rest.head?, digit? c = none

/-- What follows a number and is no part of it. -/
def Stops (rest : List (Option Char)) : Prop :=
  ∀ c ∈ rest.head?, digit? c = none ∧ c ≠ some '.' ∧ c ≠ some 'e' ∧ c ≠ some 'E'

theorem Stops.noDigit (h : Stops rest) : NoDigit rest := fun c hc => (h c hc).1

theorem digit?_digitChar {d : Nat} (h : d < 10) : digit? (some (Nat.digitChar d)) = some d := by
  have hdigits : ∀ d < 10, digit? (some (Nat.digitChar d)) = some d := by decide
  exact hdigits d h

theorem scanDigits_of_noDigit (hrest : NoDigit rest) : scanDigits rest = ([], rest) := by
  cases rest with
  | nil => rfl
  | cons c rest =>
    have hc : digit? c = none := hrest c rfl
    simp [scanDigits, hc]

theorem scanDigits_of_spells {text : List Char} {ds : List Nat} (h : SpellsDigits text ds)
    (hrest : NoDigit rest) : scanDigits (text.map some ++ rest) = (ds, rest) := by
  obtain ⟨rfl, -, hds⟩ := h
  induction ds with
  | nil => exact scanDigits_of_noDigit hrest
  | cons d ds ih =>
    obtain ⟨hd, hds⟩ := List.forall_mem_cons.1 hds
    simp only [List.map_cons, List.cons_append, scanDigits, digit?_digitChar hd, ih hds]

theorem scanWhole_of_spells {text : List Char} {ds : List Nat} (h : SpellsDigits text ds)
    (hzero : ds.head? = some 0 → ds = [0]) (hrest : NoDigit rest) :
    scanWhole (text.map some ++ rest) = some (ds, rest) := by
  rw [scanWhole, scanDigits_of_spells h hrest]
  match ds, h.ne_nil, hzero with
  | [0], _, _ => rfl
  | 0 :: _ :: _, _, hzero => cases hzero rfl
  | (_ + 1) :: _, _, _ => rfl

/-- A fraction is scanned if no digit follows, and an absent one if no point follows either. -/
theorem scanFraction_of_spells {text : List Char} {fraction : Option (List Nat)}
    (h : SpellsFraction text fraction) (hrest : NoDigit rest)
    (hpoint : rest.head? ≠ some (some '.')) :
    scanFraction (text.map some ++ rest) = some (fraction, rest) := by
  cases h with
  | none =>
    rw [List.map_nil, List.nil_append, scanFraction]
    rintro rest rfl
    exact hpoint rfl
  | @some text ds h =>
    rw [List.map_cons, List.cons_append, scanFraction, scanDigits_of_spells h hrest]
    cases ds with
    | nil => exact absurd rfl h.ne_nil
    | cons d ds => rfl

/-- Digits start with a digit. -/
theorem SpellsDigits.exists_head {text : List Char} {ds : List Nat} (h : SpellsDigits text ds) :
    ∃ d more, d < 10 ∧ text = Nat.digitChar d :: more := by
  obtain ⟨rfl, hne, hds⟩ := h
  cases ds with
  | nil => exact absurd rfl hne
  | cons d ds => exact ⟨d, _, hds d List.mem_cons_self, rfl⟩

theorem scanExponentSign_of_spells {sign : List Char} {negative : Bool}
    (h : SpellsSign sign negative) {d : Nat} (hd : d < 10) :
    scanExponentSign (sign.map some ++ some (Nat.digitChar d) :: rest) =
      (negative, some (Nat.digitChar d) :: rest) := by
  cases h with
  | none => interval_cases d <;> rfl
  | plus => rfl
  | minus => rfl

theorem scanExponent_of_spells {text : List Char} {exponent : Option (Bool × List Nat)}
    (h : SpellsExponent text exponent) (hrest : Stops rest) :
    scanExponent (text.map some ++ rest) = some (exponent, rest) := by
  cases h with
  | none =>
    match rest with
    | [] => rfl
    | none :: rest => rfl
    | some c :: rest =>
      obtain ⟨-, -, he, hE⟩ := hrest (some c) rfl
      rw [List.map_nil, List.nil_append, scanExponent, if_neg]
      rintro (rfl | rfl)
      · exact he rfl
      · exact hE rfl
  | @some mark sign text negative ds hmark hsign h =>
    have hdigits := scanDigits_of_spells h hrest.noDigit
    obtain ⟨d, more, hd, rfl⟩ := h.exists_head
    have hsigned := @scanExponentSign_of_spells (more.map some ++ rest) _ _ hsign _ hd
    rw [List.map_cons, List.cons_append] at hdigits
    rw [List.map_cons, List.map_append, List.cons_append, List.append_assoc, scanExponent,
      if_pos hmark, List.map_cons, List.cons_append, hsigned]
    dsimp only
    rw [hdigits]
    cases ds with
    | nil => exact absurd rfl h.ne_nil
    | cons d ds => rfl

/-- What comes after the whole digits of a number is no digit, and after the fraction no point. -/
theorem noDigit_exponent {text : List Char} {exponent : Option (Bool × List Nat)}
    (h : SpellsExponent text exponent) (hrest : Stops rest) :
    NoDigit (text.map some ++ rest) ∧ (text.map some ++ rest).head? ≠ some (some '.') := by
  cases h with
  | none =>
    refine ⟨hrest.noDigit, fun hpoint => ?_⟩
    exact (hrest _ hpoint).2.1 rfl
  | some hmark hsign h =>
    rcases hmark with rfl | rfl
    · exact ⟨fun c hc => by cases hc; rfl, by simp⟩
    · exact ⟨fun c hc => by cases hc; rfl, by simp⟩

theorem noDigit_fraction {text : List Char} {fraction : Option (List Nat)}
    (h : SpellsFraction text fraction) (hrest : NoDigit rest) :
    NoDigit (text.map some ++ rest) := by
  cases h with
  | none => exact hrest
  | some h => exact fun c hc => by cases hc; rfl

/-- A number is scanned up to its end; the sign has been taken off. -/
theorem scanNumber_of_spells {n : Numeral} {whole fraction exponent : List Char}
    (hwhole : SpellsDigits whole n.whole) (hzero : n.whole.head? = some 0 → n.whole = [0])
    (hfraction : SpellsFraction fraction n.fraction)
    (hexponent : SpellsExponent exponent n.exponent) (hrest : Stops rest) :
    scanNumber n.negative ((whole ++ (fraction ++ exponent)).map some ++ rest) =
      some (n, rest) := by
  obtain ⟨hnoDigit, hpoint⟩ := noDigit_exponent hexponent hrest
  simp only [List.map_append, List.append_assoc]
  rw [scanNumber, scanWhole_of_spells hwhole hzero (noDigit_fraction hfraction hnoDigit)]
  simp [scanFraction_of_spells hfraction hnoDigit hpoint, scanExponent_of_spells hexponent hrest]

theorem next?_digit {d : Nat} (hd : d < 10) {numeral : Numeral} {text : List (Option Char)}
    (h : scanNumber false (some (Nat.digitChar d) :: text) = some (numeral, rest)) :
    Token.next? (some (Nat.digitChar d) :: text) = some (.number numeral.value?, rest) := by
  have hnext : Token.next? (some (Nat.digitChar d) :: text) =
      (scanNumber false (some (Nat.digitChar d) :: text)).bind
        fun scanned => some (.number scanned.1.value?, scanned.2) := by
    interval_cases d <;> rfl
  rw [hnext, h]
  rfl

theorem isSpace_digitChar {d : Nat} (hd : d < 10) : isSpace (Nat.digitChar d) = false := by
  have hdigits : ∀ d < 10, isSpace (Nat.digitChar d) = false := by decide
  exact hdigits d hd

theorem scans_number {text : List Char} {n : Numeral} (h : SpellsNumber text n)
    (hrest : Stops rest) : Scans (text.map some ++ rest) [.number n.value?] rest := by
  cases h with
  | @intro _ whole fraction exponent hwhole hzero hfraction hexponent =>
    have hscan := scanNumber_of_spells hwhole hzero hfraction hexponent hrest
    cases hnegative : n.negative with
    | false =>
      obtain ⟨d, more, hd, rfl⟩ := hwhole.exists_head
      rw [hnegative] at hscan
      exact .token (isSpace_digitChar hd) (next?_digit hd hscan) (by simp; omega)
    | true =>
      have hminus : (minusText true ++ (whole ++ (fraction ++ exponent))).map some ++ rest =
          some '-' :: ((whole ++ (fraction ++ exponent)).map some ++ rest) := rfl
      rw [hnegative] at hscan
      rw [hminus]
      refine .token rfl ?_ (by simp; omega)
      rw [Token.next?, hscan]
      rfl

end TestSelection.Json
