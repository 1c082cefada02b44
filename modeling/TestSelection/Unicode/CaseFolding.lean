import TestSelection.Unicode.Table

/-!
# Case folding

Two characters are equal but for case if simple case folding takes them to the same character. The
classes with more than one character, the orbits, are listed here.
-/

namespace TestSelection.Unicode.CaseFolding

/-- Read orbits of two: the start of a run, given by its distance from the last start, the number
of orbits in it, the step from one to the next, and the distance between the two characters. -/
def pairsFrom (start : Nat) : List Nat → List (List Nat)
  | gap :: count :: step :: distance :: rest =>
    let first := start + gap
    (List.range count).map (fun i => [first + i * step, first + i * step + distance])
      ++ pairsFrom first rest
  | _ => []

/-- Read one orbit: the distance from each character to the next. -/
def orbitFrom (c : Nat) : List Nat → List Nat
  | [] => [c]
  | d :: ds => c :: orbitFrom (c + d) ds

/-- Read orbits of more than two: the start, given by its distance from the last start, the number
of other characters, and their distances. -/
def orbitsFrom (start : Nat) : Nat → List Nat → List (List Nat)
  | 0, _ => []
  | steps + 1, gap :: count :: rest =>
    orbitFrom (start + gap) (rest.take count) :: orbitsFrom (start + gap) steps (rest.drop count)
  | _ + 1, _ => []

/-- The orbits of two characters. -/
def pairs : List (List Nat) := pairsFrom 0 (Table.numbers
  ["bCKBaBLHBaBIHBaBmDFBaBGRBaBSHBaBHBB+nHaBBBzDBYCBsBDCBHICBRXCBpBDCBHBBdGBBBsGBCCBEBBoGBBB",
  "BCCBnGCBBBDBBpCBBBkGBBBlGBBBBCBBnGBBBpGBBBbDBBBtGBBBrGBBBBCBBdFBBBbsjBBBBtGBBBvGBBBcEBBB",
  "wGBDCBGBB6GBBBBCBB6GDBBBCBB6GBBBBCCBzGCCCBEBB7GBBBBEBBBDBByBOICBRJCBWBBBEUCBkBJCBYBBlrKB",
  "BBBDBBirKBCB+rKCBBBDBBfCBBBhCBFCBKBB+qKBBB8qKBBB-qKKBBpkjBFBBlkjBDBBhljBBBBijjBBBBekjBEB",
  "BekjBBBBxpKBBBbkjBFBB9pKMBBhpKFBBdkjBFBBkjjBWBBvijBBBBsijBsGCCBGBBBFDBcEEBBuDHBBgBCDBfBE",
  "BBaCCCB+BCBBdcHBCCaBDCCaBDBBaBECCaBDCBaBGCBaBDCBaBDCBaBGBBtbH5BBIJMCB0BBHFBBBDBBBGQBqCQC",
  "BaBDCCaBDIBaBJCBaBEHBaBIFBaBvBBBBEPCBgB1CBwBBBPBHCBPqBCBbDgBBqBp7CgBBadHhBBBadHGBBadHDlB",
  "Ba-CnBDBa-CdVqCBq-fBqCGBIzeCBBBqHBBeqcBEBBgxDRBByrcBsDqBCBcD0CB-BqBCBaDIBIQGBIQIBIQIBIQG",
  "BIRECIPIBIQCBkCCEBwCECBeDCCBaECCBqDCCB-DEIBIQIBIQIBIQCBIDBBJQBBJNCBIQCBIFBBHOBBJ+JBB2oBQ",
  "BQdBBBBtZ0B0k6BqBBqBaDBBBHDCBLBBBDBBBLsBCBlDCCBHBBBok4FCBMRCBuBOCBcFHCBQ5CBhCCCBFFCBNBBB",
  "FCCBEBBqBCKCB3BBa3BICBTCCBFBBBEBBBGDCB5BBBqyUBBB8aB0BaB+gBiBBiBqFeBBiBaGLBhBMPBhBQHBhBIC",
  "BhBmxBtBBaCqGWBaBq6CaBBaBanVaBBaBaw4cBBcB"])

/-- The orbits of more than two characters. -/
def largeOrbits : List (List Nat) := orbitsFrom 0 1000 (Table.numbers
  ["lCCaB+fIICaBmIcDChXaBQCaBgcI+HCBBDCBBDCBBhBCBBuKDuCaBfaHnCCaB4DCaBaCDDaBZdBCCaBwBGCaBWBC",
  "aBqBCC5BDCaBPDCaB9kHjDCaBocGCCaBncGKCaBecGDCaBccGBDaBccGBICaB8bGyBCBebGgbGCcocBByOCB6B"])

/-- All orbits. -/
def orbits : List (List Nat) := pairs ++ largeOrbits

/-- Add to a set all characters that equal one of its own but for case. -/
def close (s : CodeSet) : CodeSet :=
  let added := (orbits.filter (·.any s.mem)).flatten
  s.union (.ofRanges (added.map fun c => (c, c)))

end TestSelection.Unicode.CaseFolding
