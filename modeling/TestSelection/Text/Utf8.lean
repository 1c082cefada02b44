/-!
# Bytes as text

`Utf8.decode` reads bytes as UTF-8. A stretch of bytes that is no character, but could be the start
of one, becomes a single `none`; any other byte that fits nowhere is a `none` of its own.

A reader that insists on text uses `Utf8.decode?`, and one that does not uses `Utf8.decodeLossy`,
which puts the replacement character in the place of each `none`.
-/

namespace TestSelection.Utf8

/-- A first byte: how many bytes follow it, and the range of the second one. -/
structure Lead where
  length : Nat
  low : Nat
  high : Nat

/-- What follows a first byte above 0x7F, if it is one. -/
def lead? (b : Nat) : Option Lead :=
  if 0xC2 ≤ b ∧ b ≤ 0xDF then some ⟨1, 0x80, 0xBF⟩
  else if b = 0xE0 then some ⟨2, 0xA0, 0xBF⟩
  else if b = 0xED then some ⟨2, 0x80, 0x9F⟩
  else if 0xE1 ≤ b ∧ b ≤ 0xEF then some ⟨2, 0x80, 0xBF⟩
  else if b = 0xF0 then some ⟨3, 0x90, 0xBF⟩
  else if b = 0xF4 then some ⟨3, 0x80, 0x8F⟩
  else if 0xF1 ≤ b ∧ b ≤ 0xF3 then some ⟨3, 0x80, 0xBF⟩
  else none

/-- Whether a byte continues a character. -/
def continues (b : Nat) : Bool := 0x80 ≤ b && b ≤ 0xBF

/-- Decode bytes, given as numbers. -/
def decodeNats : List Nat → List (Option Char)
  | [] => []
  | a :: rest =>
    if a < 0x80 then some (Char.ofNat a) :: decodeNats rest
    else
      match lead? a with
      | none => none :: decodeNats rest
      | some l =>
        match rest with
        | [] => [none]
        | b :: rest =>
          if b < l.low ∨ l.high < b then none :: decodeNats (b :: rest)
          else if l.length = 1 then
            some (Char.ofNat (a % 0x20 * 0x40 + b % 0x40)) :: decodeNats rest
          else
            match rest with
            | [] => [none]
            | c :: rest =>
              if !continues c then none :: decodeNats (c :: rest)
              else if l.length = 2 then
                some (Char.ofNat (a % 0x10 * 0x1000 + b % 0x40 * 0x40 + c % 0x40)) ::
                  decodeNats rest
              else
                match rest with
                | [] => [none]
                | d :: rest =>
                  if !continues d then none :: decodeNats (d :: rest)
                  else
                    some (Char.ofNat (a % 0x08 * 0x40000 + b % 0x40 * 0x1000 + c % 0x40 * 0x40 +
                      d % 0x40)) :: decodeNats rest

/-- Decode bytes. -/
def decode (bytes : List UInt8) : List (Option Char) := decodeNats (bytes.map UInt8.toNat)

/-- The text of bytes, if all of them are text. -/
def decode? (bytes : List UInt8) : Option String :=
  ((decode bytes).mapM id).map String.ofList

/-- The text of bytes, with U+FFFD for what is no text. -/
def decodeLossy (bytes : List UInt8) : String :=
  String.ofList ((decode bytes).map (·.getD '\uFFFD'))

end TestSelection.Utf8
