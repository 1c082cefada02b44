/-!
# The 64-bit xxHash of a byte sequence

Four running words absorb the input in stripes of 32 bytes, one 8-byte word each. What is left
over, at most 31 bytes, is folded in as words, then as a half word, then byte by byte, and a
final mixing step spreads every bit over the whole result. All arithmetic is modulo `2 ^ 64`.

Inputs shorter than one stripe skip the running words and start from the seed.
-/

namespace TestSelection.XXH64

/-! ## Words -/

def prime1 : UInt64 := 0x9E3779B185EBCA87
def prime2 : UInt64 := 0xC2B2AE3D27D4EB4F
def prime3 : UInt64 := 0x165667B19E3779F9
def prime4 : UInt64 := 0x85EBCA77C2B2AE63
def prime5 : UInt64 := 0x27D4EB2F165667C5

/-- Rotate left by `n` bits, for `0 < n < 64`. -/
def rotl (x : UInt64) (n : UInt64) : UInt64 := (x <<< n) ||| (x >>> (64 - n))

/-- The word whose bytes are listed from the lowest. -/
def littleEndian (bytes : List UInt8) : UInt64 :=
  bytes.foldr (fun b word => (word <<< 8) ||| b.toUInt64) 0

/-! ## Stripes -/

/-- The four running words. -/
structure Lanes where
  a : UInt64
  b : UInt64
  c : UInt64
  d : UInt64

/-- The running words before any input. -/
def Lanes.start (seed : UInt64) : Lanes :=
  ⟨seed + prime1 + prime2, seed + prime2, seed, seed - prime1⟩

/-- Absorb one word into one running word. -/
def mix (lane word : UInt64) : UInt64 := rotl (lane + word * prime2) 31 * prime1

/-- Absorb one stripe of 32 bytes. -/
def Lanes.absorb (lanes : Lanes) (stripe : List UInt8) : Lanes :=
  let word (i : Nat) := littleEndian ((stripe.drop (8 * i)).take 8)
  ⟨mix lanes.a (word 0), mix lanes.b (word 1), mix lanes.c (word 2), mix lanes.d (word 3)⟩

/-- Absorb the first `n` stripes of the input. -/
def Lanes.absorbAll (lanes : Lanes) (input : List UInt8) : Nat → Lanes
  | 0 => lanes
  | n + 1 => (lanes.absorb (input.take 32)).absorbAll (input.drop 32) n

/-- Join the four running words into one. -/
def Lanes.join (lanes : Lanes) : UInt64 :=
  let merge (acc lane : UInt64) := (acc ^^^ mix 0 lane) * prime1 + prime4
  let acc := rotl lanes.a 1 + rotl lanes.b 7 + rotl lanes.c 12 + rotl lanes.d 18
  [lanes.a, lanes.b, lanes.c, lanes.d].foldl merge acc

/-! ## The rest of the input -/

/-- Fold in the first `n` words of the rest. -/
def foldWords (acc : UInt64) (input : List UInt8) : Nat → UInt64
  | 0 => acc
  | n + 1 =>
    let word := littleEndian (input.take 8)
    foldWords (rotl (acc ^^^ mix 0 word) 27 * prime1 + prime4) (input.drop 8) n

/-- Fold in four bytes. -/
def foldHalf (acc : UInt64) (half : List UInt8) : UInt64 :=
  rotl (acc ^^^ (littleEndian half * prime1)) 23 * prime2 + prime3

/-- Fold in a single byte. -/
def foldByte (acc : UInt64) (byte : UInt8) : UInt64 :=
  rotl (acc ^^^ (byte.toUInt64 * prime5)) 11 * prime1

/-- Fold in fewer than eight bytes: four at once if there are four, then one at a time. -/
def foldTail (acc : UInt64) (tail : List UInt8) : UInt64 :=
  if 4 ≤ tail.length then
    (tail.drop 4).foldl foldByte (foldHalf acc (tail.take 4))
  else
    tail.foldl foldByte acc

/-- Spread every bit over the whole word. -/
def avalanche (acc : UInt64) : UInt64 :=
  let acc := (acc ^^^ (acc >>> 33)) * prime2
  let acc := (acc ^^^ (acc >>> 29)) * prime3
  acc ^^^ (acc >>> 32)

/-- The hash of a byte sequence under a seed. -/
def hash (seed : UInt64) (input : List UInt8) : UInt64 :=
  let size := input.length
  let start :=
    if 32 ≤ size then ((Lanes.start seed).absorbAll input (size / 32)).join else seed + prime5
  let acc := start + size.toUInt64
  let rest := input.drop (32 * (size / 32))
  let words := rest.length / 8
  avalanche (foldTail (foldWords acc rest words) (rest.drop (8 * words)))

end TestSelection.XXH64
