import Mathlib.Tactic.SplitIfs
import TestSelection.Text.Utf8

/-!
# Text as bytes and back

The bytes of a text are decoded to its characters, and no place in them is taken for junk. So a file
that holds what was written is read as what was written, by readers who insist on text
(`decode?_toUTF8`) and by those who do not (`decodeLossy_toUTF8`).

The work is in one character, with one lemma for each number of bytes. The first byte tells how many
follow, and the range that it allows for the second one is just what is left of that length once
shorter forms and surrogates are taken out.
-/

namespace TestSelection.Utf8

/-! ## One character -/

section

variable {n : Nat} (rest : List Nat)

theorem decodeNats_one (h : n < 0x80) :
    decodeNats (n :: rest) = some (Char.ofNat n) :: decodeNats rest := by
  rw [decodeNats, if_pos h]

theorem decodeNats_two (hlow : 0x80 ≤ n) (hhigh : n < 0x800) :
    decodeNats ((n / 64 + 0xC0) :: (n % 64 + 0x80) :: rest) =
      some (Char.ofNat n) :: decodeNats rest := by
  have hlead : lead? (n / 64 + 0xC0) = some ⟨1, 0x80, 0xBF⟩ := by
    rw [lead?, if_pos (by omega)]
  have hvalue : (n / 64 + 0xC0) % 0x20 * 0x40 + (n % 64 + 0x80) % 0x40 = n := by omega
  rw [decodeNats, if_neg (by omega), hlead]
  dsimp only
  rw [if_neg (by omega), if_pos rfl, hvalue]

/-- After the first of three bytes, the second one is in the range that it may have. -/
theorem lead?_three (hlow : 0x800 ≤ n) (hhigh : n < 0x10000) (hvalid : n < 0xD800 ∨ 0xDFFF < n) :
    ∃ l, lead? (n / 4096 + 0xE0) = some l ∧ l.length = 2 ∧
      l.low ≤ n / 64 % 64 + 0x80 ∧ n / 64 % 64 + 0x80 ≤ l.high := by
  by_cases hshort : n / 4096 = 0
  · -- Below `0xA0`, two bytes would have been enough.
    refine ⟨⟨2, 0xA0, 0xBF⟩, by rw [hshort]; rfl, rfl, ?_, ?_⟩ <;> dsimp only <;> omega
  by_cases hsurrogate : n / 4096 = 0xD
  · refine ⟨⟨2, 0x80, 0x9F⟩, by rw [hsurrogate]; rfl, rfl, ?_, ?_⟩ <;> dsimp only <;> omega
  · have hlead : lead? (n / 4096 + 0xE0) = some ⟨2, 0x80, 0xBF⟩ := by
      rw [lead?, if_neg (by omega), if_neg (by omega), if_neg (by omega), if_pos (by omega)]
    refine ⟨_, hlead, rfl, ?_, ?_⟩ <;> dsimp only <;> omega

/-- After the first of four bytes, the second one is in the range that it may have. -/
theorem lead?_four (hlow : 0x10000 ≤ n) (hhigh : n < 0x110000) :
    ∃ l, lead? (n / 262144 + 0xF0) = some l ∧ l.length = 3 ∧
      l.low ≤ n / 4096 % 64 + 0x80 ∧ n / 4096 % 64 + 0x80 ≤ l.high := by
  by_cases hshort : n / 262144 = 0
  · refine ⟨⟨3, 0x90, 0xBF⟩, by rw [hshort]; rfl, rfl, ?_, ?_⟩ <;> dsimp only <;> omega
  by_cases hlast : n / 262144 = 4
  · refine ⟨⟨3, 0x80, 0x8F⟩, by rw [hlast]; rfl, rfl, ?_, ?_⟩ <;> dsimp only <;> omega
  · have hlead : lead? (n / 262144 + 0xF0) = some ⟨3, 0x80, 0xBF⟩ := by
      rw [lead?, if_neg (by omega), if_neg (by omega), if_neg (by omega), if_neg (by omega),
        if_neg (by omega), if_neg (by omega), if_pos (by omega)]
    refine ⟨_, hlead, rfl, ?_, ?_⟩ <;> dsimp only <;> omega

theorem continues_tail (k : Nat) : continues (k % 64 + 0x80) = true := by
  simp only [continues, Bool.and_eq_true, decide_eq_true_eq]
  omega

theorem decodeNats_three (hlow : 0x800 ≤ n) (hhigh : n < 0x10000)
    (hvalid : n < 0xD800 ∨ 0xDFFF < n) :
    decodeNats ((n / 4096 + 0xE0) :: (n / 64 % 64 + 0x80) :: (n % 64 + 0x80) :: rest) =
      some (Char.ofNat n) :: decodeNats rest := by
  obtain ⟨l, hlead, hlength, hl, hh⟩ := lead?_three hlow hhigh hvalid
  have hvalue : (n / 4096 + 0xE0) % 0x10 * 0x1000 + (n / 64 % 64 + 0x80) % 0x40 * 0x40 +
      (n % 64 + 0x80) % 0x40 = n := by omega
  rw [decodeNats, if_neg (by omega), hlead]
  dsimp only
  rw [if_neg (by omega), if_neg (by omega), continues_tail, if_neg (by decide), if_pos hlength,
    hvalue]

theorem decodeNats_four (hlow : 0x10000 ≤ n) (hhigh : n < 0x110000) :
    decodeNats ((n / 262144 + 0xF0) :: (n / 4096 % 64 + 0x80) :: (n / 64 % 64 + 0x80) ::
        (n % 64 + 0x80) :: rest) =
      some (Char.ofNat n) :: decodeNats rest := by
  obtain ⟨l, hlead, hlength, hl, hh⟩ := lead?_four hlow hhigh
  have hvalue : (n / 262144 + 0xF0) % 0x08 * 0x40000 + (n / 4096 % 64 + 0x80) % 0x40 * 0x1000 +
      (n / 64 % 64 + 0x80) % 0x40 * 0x40 + (n % 64 + 0x80) % 0x40 = n := by omega
  rw [decodeNats, if_neg (by omega), hlead]
  dsimp only
  rw [if_neg (by omega), if_neg (by omega), continues_tail, if_neg (by decide),
    if_neg (by omega), continues_tail, if_neg (by decide), hvalue]

end

/-- The bytes of the character of a number, as numbers. -/
def bytesOf (n : Nat) : List Nat :=
  if n < 0x80 then [n]
  else if n < 0x800 then [n / 64 + 0xC0, n % 64 + 0x80]
  else if n < 0x10000 then [n / 4096 + 0xE0, n / 64 % 64 + 0x80, n % 64 + 0x80]
  else [n / 262144 + 0xF0, n / 4096 % 64 + 0x80, n / 64 % 64 + 0x80, n % 64 + 0x80]

theorem toNat_lt_surrogates_or (c : Char) :
    c.toNat < 0xD800 ∨ 0xDFFF < c.toNat ∧ c.toNat < 0x110000 := c.valid

theorem map_utf8EncodeChar (c : Char) :
    (String.utf8EncodeChar c).map UInt8.toNat = bytesOf c.toNat := by
  have hrange := toNat_lt_surrogates_or c
  unfold String.utf8EncodeChar bytesOf
  simp only [Char.toNat_val]
  generalize c.toNat = n at *
  split_ifs <;> simp <;> omega

/-- The bytes of a character are decoded to that character. -/
theorem decodeNats_bytesOf {n : Nat} (hrange : n < 0xD800 ∨ 0xDFFF < n ∧ n < 0x110000)
    (rest : List Nat) :
    decodeNats (bytesOf n ++ rest) = some (Char.ofNat n) :: decodeNats rest := by
  unfold bytesOf
  split_ifs with h₁ h₂ h₃
  · exact decodeNats_one rest h₁
  · exact decodeNats_two rest (by omega) h₂
  · exact decodeNats_three rest (by omega) h₃ (by omega)
  · exact decodeNats_four rest (by omega) (by omega)

/-! ## Bytes -/

/-- Listing the bytes from a position on appends them to what was taken before. -/
theorem toList_loop (bytes : ByteArray) (i : Nat) (taken : List UInt8) :
    ByteArray.toList.loop bytes i taken = taken.reverse ++ bytes.data.toList.drop i := by
  fun_induction ByteArray.toList.loop bytes i taken with
  | case1 i taken hlt ih =>
    have hi : i < bytes.data.toList.length := hlt
    have hget : bytes.get! i = bytes.data.toList[i] := by simp [ByteArray.get!, hlt]
    rw [ih, List.reverse_cons, List.append_assoc, List.singleton_append, hget,
      ← List.drop_eq_getElem_cons hi]
  | case2 i taken hge =>
    have hi : bytes.data.toList.length ≤ i := Nat.le_of_not_lt hge
    rw [List.drop_eq_nil_of_le hi, List.append_nil]

/-- The bytes of a text are those of its characters, in order. -/
theorem toList_toUTF8 (s : String) :
    s.toUTF8.toList = s.toList.flatMap String.utf8EncodeChar := by
  obtain ⟨cs, rfl⟩ : ∃ cs, s = String.ofList cs := ⟨s.toList, String.ofList_toList.symm⟩
  rw [String.toUTF8_eq_toByteArray, String.toByteArray_ofList, String.toList_ofList,
    ByteArray.toList, toList_loop, List.utf8Encode, List.toList_data_toByteArray]
  rfl

/-- The bytes of a text that is put together from pieces. -/
theorem toList_toUTF8_join (pieces : List String) :
    (String.join pieces).toUTF8.toList = pieces.flatMap fun piece => piece.toUTF8.toList := by
  simp only [toList_toUTF8, String.toList_join, List.flatMap_assoc]

/-! ## Texts -/

/-- **The bytes of a text are decoded to its characters.** -/
theorem decode_toUTF8 (s : String) : decode s.toUTF8.toList = s.toList.map some := by
  rw [decode, toList_toUTF8]
  induction s.toList with
  | nil => rfl
  | cons c cs ih =>
    rw [List.flatMap_cons, List.map_append, map_utf8EncodeChar,
      decodeNats_bytesOf (toNat_lt_surrogates_or c), ih, Char.ofNat_toNat, List.map_cons]

theorem decode?_toUTF8 (s : String) : decode? s.toUTF8.toList = some s := by
  have hall : (s.toList.map some).mapM id = some s.toList := by
    rw [List.mapM_map]
    exact (List.mapM_pure (f := fun c : Char => c)).trans (congrArg some (List.map_id' s.toList))
  rw [decode?, decode_toUTF8, hall, Option.map_some, String.ofList_toList]

theorem decodeLossy_toUTF8 (s : String) : decodeLossy s.toUTF8.toList = s := by
  rw [decodeLossy, decode_toUTF8, List.map_map]
  exact (congrArg String.ofList (List.map_id s.toList)).trans String.ofList_toList

end TestSelection.Utf8
