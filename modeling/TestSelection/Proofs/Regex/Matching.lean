import Mathlib.Data.Nat.Bitwise
import TestSelection.Regex.Meaning

/-!
# Matching finds every match

**Theorem (`Expr.isMatch_iff_exists`).** An expression has a match in an input, as far as the
engine is concerned, exactly if it matches the input between some two places.

The engine works on sets of places, the meaning of an expression is a relation between places. A
function on sets *follows* a relation if it sends each set to all places that the relation leads to
from there (`Follows`). The plan of an expression follows what the expression matches
(`Expr.follows_run`). This is shown by induction on the expression, and all cases but one are about
the sets of the plan only.

The remaining case is the repetition. The engine stops as soon as a step adds no place, which is
harmless (`Follows.stepTimes`, `Follows.stepUpTo`). And a repetition without an upper bound is cut
off after as many steps as the input has places, which is harmless as well: matching never goes
back, so a step that does not go on can be left out (`Forward.exists_times_le`).
-/

namespace TestSelection.Regex

/-- Induction on expressions: a concatenation comes after its parts, and an alternation after its
branches. -/
@[elab_as_elim, induction_eliminator]
theorem Expr.induct {motive : Expr → Prop} (empty : motive .empty)
    (text : ∀ chars, motive (.text chars)) (set : ∀ unicode s, motive (.set unicode s))
    (look : ∀ l, motive (.look l))
    (repetition : ∀ least greatest greedy sub,
      motive sub → motive (.repetition least greatest greedy sub))
    (capture : ∀ index name sub, motive sub → motive (.capture index name sub))
    (concat : ∀ parts, (∀ x ∈ parts, motive x) → motive (.concat parts))
    (alternation : ∀ branches, (∀ x ∈ branches, motive x) → motive (.alternation branches)) :
    ∀ x, motive x
  | .empty => empty
  | .text chars => text chars
  | .set unicode s => set unicode s
  | .look l => look l
  | .repetition least greatest greedy sub =>
    repetition least greatest greedy sub
      (induct empty text set look repetition capture concat alternation sub)
  | .capture index name sub =>
    capture index name sub (induct empty text set look repetition capture concat alternation sub)
  | .concat parts =>
    concat parts fun x _ => induct empty text set look repetition capture concat alternation x
  | .alternation branches =>
    alternation branches fun x _ =>
      induct empty text set look repetition capture concat alternation x

variable {input : List Char} {r s : Nat → Nat → Prop} {f g : Nat → Nat} {p i j : Nat}

/-! ## Relations between places -/

theorem times_add (r : Nat → Nat → Prop) (m n i j : Nat) :
    Times r (m + n) i j ↔ ∃ k, Times r m i k ∧ Times r n k j := by
  induction m generalizing i with
  | zero => simp [Times]
  | succ m ih =>
    simp only [Nat.succ_add, Times, ih]
    constructor
    · rintro ⟨k, hk, l, hl, hj⟩
      exact ⟨l, ⟨k, hk, hl⟩, hj⟩
    · rintro ⟨l, ⟨k, hk, hl⟩, hj⟩
      exact ⟨k, hk, l, hl, hj⟩

/-- The relation leads from places of the input to places of the input, and never back. -/
def Forward (input : List Char) (r : Nat → Nat → Prop) : Prop :=
  ∀ i j, i ≤ input.length → r i j → i ≤ j ∧ j ≤ input.length

namespace Forward

theorem of_stay (h : ∀ i j, r i j → i = j) : Forward input r := by
  intro i j hi hij
  cases h i j hij
  exact ⟨Nat.le_refl i, hi⟩

theorem comp (hr : Forward input r) (hs : Forward input s) :
    Forward input fun i j => ∃ k, r i k ∧ s k j := by
  rintro i j hi ⟨k, hk, hj⟩
  obtain ⟨hik, hkn⟩ := hr i k hi hk
  obtain ⟨hkj, hjn⟩ := hs k j hkn hj
  exact ⟨Nat.le_trans hik hkj, hjn⟩

theorem or (hr : Forward input r) (hs : Forward input s) :
    Forward input fun i j => r i j ∨ s i j := by
  rintro i j hi (h | h)
  · exact hr i j hi h
  · exact hs i j hi h

theorem times (h : Forward input r) (n : Nat) : Forward input (Times r n) := by
  induction n with
  | zero => exact of_stay fun i j hij => hij
  | succ n ih => exact h.comp ih

/-- Between two places, no more steps are needed than there are characters between them. -/
theorem exists_times_le (h : Forward input r) {n : Nat} (hi : i ≤ input.length)
    (hn : Times r n i j) : ∃ m ≤ j - i, Times r m i j := by
  induction n generalizing i with
  | zero => exact ⟨0, Nat.zero_le _, hn⟩
  | succ n ih =>
    obtain ⟨k, hk, hj⟩ := hn
    obtain ⟨hik, hkn⟩ := h i k hi hk
    have hkj : k ≤ j := (h.times n k j hkn hj).1
    obtain ⟨m, hm, hmj⟩ := ih hkn hj
    by_cases hstay : i = k
    · subst hstay
      exact ⟨m, hm, hmj⟩
    · exact ⟨m + 1, by omega, k, hk, hmj⟩

end Forward

/-! ## Sets of places -/

theorem testBit_placesOf (marks : List Bool) (i : Nat) :
    (placesOf marks).testBit i = marks[i]?.getD false := by
  induction marks generalizing i with
  | nil => simp [placesOf]
  | cons b bs ih =>
    have hrest : (2 * placesOf bs + b.toNat) / 2 = placesOf bs := by
      cases b <;> simp [Nat.add_div]
    cases i with
    | zero => cases b <;> simp [placesOf, Nat.testBit_zero]
    | succ i => rw [placesOf, Nat.testBit_add_one, hrest, ih, List.getElem?_cons_succ]

theorem testBit_allPlaces : (allPlaces input).testBit i = true ↔ i ≤ input.length := by
  rw [allPlaces, Nat.one_shiftLeft, Nat.testBit_two_pow_sub_one, decide_eq_true_iff,
    Nat.lt_succ_iff]

theorem testBit_placesBefore (test : Char → Bool) :
    (placesBefore test input).testBit i = true ↔ ∃ c, input[i]? = some c ∧ test c = true := by
  rw [placesBefore, testBit_placesOf, List.getElem?_map]
  cases input[i]? <;> simp

theorem getElem?_textMarks (text : List Char) (i : Nat) :
    (textMarks text input)[i]? =
      if i ≤ input.length then some (text.isPrefixOf (input.drop i)) else none := by
  induction input generalizing i with
  | nil => cases i <;> cases text <;> simp [textMarks]
  | cons c cs ih => cases i <;> simp [textMarks, ih]

theorem testBit_occurrences {text : List Char} :
    (occurrences input text).testBit i = true ↔ i ≤ input.length ∧ text <+: input.drop i := by
  rw [occurrences, testBit_placesOf, getElem?_textMarks]
  by_cases hi : i ≤ input.length <;> simp [hi]

theorem getElem?_placesOfLook (l : Look) (before : Option Char) (i : Nat) :
    (placesOfLook l before input)[i]? =
      if i ≤ input.length then some (l.holds (if i = 0 then before else input[i - 1]?) input[i]?)
      else none := by
  induction input generalizing before i with
  | nil => cases i <;> simp [placesOfLook]
  | cons c cs ih =>
    cases i with
    | zero => simp [placesOfLook]
    | succ i => cases i <;> simp [placesOfLook, ih]

theorem testBit_placesOfLook {l : Look} :
    (placesOf (placesOfLook l none input)).testBit i = true ↔ l.HoldsAt input i := by
  rw [testBit_placesOf, getElem?_placesOfLook, Look.HoldsAt]
  by_cases hi : i ≤ input.length <;> simp [hi]

/-! ## Following a relation -/

/-- The places of a set lie in the input. -/
def Within (input : List Char) (p : Nat) : Prop := ∀ i, p.testBit i = true → i ≤ input.length

/-- A function sends each set of places to the places that a relation leads to from there. -/
def Follows (input : List Char) (f : Nat → Nat) (r : Nat → Nat → Prop) : Prop :=
  ∀ p, Within input p → ∀ j, (f p).testBit j = true ↔ ∃ i, p.testBit i = true ∧ r i j

theorem Forward.within (hr : Forward input r) (hf : Follows input f r) (hp : Within input p) :
    Within input (f p) := by
  intro j hj
  obtain ⟨i, hi, hij⟩ := (hf p hp j).1 hj
  exact (hr i j (hp i hi) hij).2

namespace Follows

/-- Stay at the places of a set. -/
theorem stay (allowed : Nat) :
    Follows input (fun p => p &&& allowed) fun i j => i = j ∧ allowed.testBit i = true := by
  intro p _ j
  rw [Nat.testBit_and, Bool.and_eq_true]
  constructor
  · rintro ⟨hj, hallowed⟩
    exact ⟨j, hj, rfl, hallowed⟩
  · rintro ⟨i, hi, rfl, hallowed⟩
    exact ⟨hi, hallowed⟩

/-- Move on from the places of a set. -/
theorem move (starts width : Nat) :
    Follows input (fun p => (p &&& starts) <<< width) fun i j =>
      j = i + width ∧ starts.testBit i = true := by
  intro p _ j
  simp only [Nat.testBit_shiftLeft, Nat.testBit_and, Bool.and_eq_true, decide_eq_true_eq]
  constructor
  · rintro ⟨hj, hbit, hstart⟩
    exact ⟨j - width, hbit, (Nat.sub_add_cancel hj).symm, hstart⟩
  · rintro ⟨i, hi, rfl, hstart⟩
    rw [Nat.add_sub_cancel]
    exact ⟨Nat.le_add_left width i, hi, hstart⟩

/-- Stay where one is. -/
theorem rest : Follows input (fun p => p) fun i j => i = j ∧ i ≤ input.length := by
  intro p hp j
  constructor
  · intro hj
    exact ⟨j, hj, rfl, hp j hj⟩
  · rintro ⟨i, hi, rfl, -⟩
    exact hi

theorem comp (hf : Follows input f r) (hr : Forward input r) (hg : Follows input g s) :
    Follows input (fun p => g (f p)) fun i j => ∃ k, r i k ∧ s k j := by
  intro p hp j
  rw [hg (f p) (hr.within hf hp) j]
  constructor
  · rintro ⟨k, hk, hj⟩
    obtain ⟨i, hi, hik⟩ := (hf p hp k).1 hk
    exact ⟨i, hi, k, hik, hj⟩
  · rintro ⟨i, hi, k, hik, hj⟩
    exact ⟨k, (hf p hp k).2 ⟨i, hi, hik⟩, hj⟩

theorem or (hf : Follows input f r) (hg : Follows input g s) :
    Follows input (fun p => f p ||| g p) fun i j => r i j ∨ s i j := by
  intro p hp j
  rw [Nat.testBit_or, Bool.or_eq_true, hf p hp j, hg p hp j, ← exists_or]
  simp only [← and_or_left]

theorem congr (hf : Follows input f r) (h : ∀ i j, i ≤ input.length → (r i j ↔ s i j)) :
    Follows input f s := by
  intro p hp j
  rw [hf p hp j]
  exact exists_congr fun i => and_congr_right fun hi => h i j (hp i hi)

/-- If a step leads back to the same set, so does any number of steps. -/
theorem times_of_fixed (hf : Follows input f r) (hp : Within input p) (hfix : f p = p) (n j : Nat) :
    p.testBit j = true ↔ ∃ i, p.testBit i = true ∧ Times r n i j := by
  induction n with
  | zero => simp [Times]
  | succ n ih =>
    rw [ih]
    simp only [Times]
    constructor
    · rintro ⟨k, hk, hj⟩
      obtain ⟨i, hi, hik⟩ := (hf p hp k).1 (hfix.symm ▸ hk)
      exact ⟨i, hi, k, hik, hj⟩
    · rintro ⟨i, hi, k, hik, hj⟩
      exact ⟨k, hfix ▸ (hf p hp k).2 ⟨i, hi, hik⟩, hj⟩

theorem stepTimes (hf : Follows input f r) (hr : Forward input r) (n : Nat) :
    Follows input (Regex.stepTimes f n) (Times r n) := by
  induction n with
  | zero =>
    intro p _ j
    simp [Regex.stepTimes, Times]
  | succ n ih =>
    intro p hp j
    rw [Regex.stepTimes]
    by_cases hfix : f p = p
    · rw [if_pos hfix]
      exact hf.times_of_fixed hp hfix (n + 1) j
    · rw [if_neg hfix]
      exact comp hf hr ih p hp j

theorem stepUpTo (hf : Follows input f r) (hr : Forward input r) (n : Nat) :
    Follows input (Regex.stepUpTo f n) fun i j => ∃ m ≤ n, Times r m i j := by
  induction n with
  | zero =>
    intro p _ j
    simp [Regex.stepUpTo, Times]
  | succ n ih =>
    intro p hp j
    -- a step that keeps the places it starts from
    have hkeep : Follows input (fun p => p ||| f p) fun i j => i = j ∨ r i j :=
      or (fun p _ j => by simp) hf
    have hforward : Forward input fun i j => i = j ∨ r i j :=
      (Forward.of_stay fun _ _ h => h).or hr
    rw [Regex.stepUpTo]
    by_cases hfix : p ||| f p = p
    · rw [if_pos hfix]
      constructor
      · intro hj
        exact ⟨j, hj, 0, Nat.zero_le _, rfl⟩
      · rintro ⟨i, hi, m, -, hm⟩
        have hmore : Times (fun i j => i = j ∨ r i j) m i j := by
          clear hi
          induction m generalizing i with
          | zero => exact hm
          | succ m ihm =>
            obtain ⟨k, hk, hj⟩ := hm
            exact ⟨k, .inr hk, ihm k hj⟩
        exact (hkeep.times_of_fixed hp hfix m j).2 ⟨i, hi, hmore⟩
    · rw [if_neg hfix, comp hkeep hforward ih p hp j]
      refine exists_congr fun i => and_congr_right fun _ => ?_
      constructor
      · rintro ⟨k, rfl | hik, m, hm, hj⟩
        · exact ⟨m, Nat.le_succ_of_le hm, hj⟩
        · exact ⟨m + 1, Nat.succ_le_succ hm, k, hik, hj⟩
      · rintro ⟨m, hm, hj⟩
        cases m with
        | zero => exact ⟨i, .inl rfl, 0, Nat.zero_le _, hj⟩
        | succ m =>
          obtain ⟨k, hik, hj⟩ := hj
          exact ⟨k, .inr hik, m, Nat.le_of_succ_le_succ hm, hj⟩

end Follows

/-! ## Plans -/

namespace Expr

theorem forward_matches (input : List Char) (x : Expr) : Forward input (x.Matches input) := by
  induction x with
  | empty => exact .of_stay fun i j h => h.1
  | text chars =>
    rintro i j hi ⟨rfl, -, hbegins⟩
    have hlength := hbegins.length_le
    rw [List.length_drop] at hlength
    omega
  | set unicode s =>
    rintro i j - ⟨rfl, c, hc, -⟩
    obtain ⟨hlt, -⟩ := List.getElem?_eq_some_iff.1 hc
    omega
  | look l => exact .of_stay fun i j h => h.1
  | repetition least greatest greedy sub ih =>
    rintro i j hi ⟨more, -, htimes⟩
    exact ih.times _ i j hi htimes
  | capture index name sub ih => exact ih
  | concat parts ih =>
    show Forward input (MatchesAll input parts)
    induction parts with
    | nil => exact .of_stay fun i j h => h.1
    | cons x xs ihs =>
      have hx := ih x List.mem_cons_self
      have hxs := ihs fun y hy => ih y (List.mem_cons_of_mem x hy)
      exact hx.comp hxs
  | alternation branches ih =>
    show Forward input (MatchesAny input branches)
    induction branches with
    | nil => exact fun i j _ h => h.elim
    | cons x xs ihs =>
      have hx := ih x List.mem_cons_self
      have hxs := ihs fun y hy => ih y (List.mem_cons_of_mem x hy)
      exact hx.or hxs

/-- A repetition matches by the least number of steps and then by some more, of which no more are
needed than there are places. -/
theorem matches_repetition_iff {least : Nat} {greatest : Option Nat} {greedy : Bool} {sub : Expr}
    (hi : i ≤ input.length) :
    (Expr.repetition least greatest greedy sub).Matches input i j ↔
      ∃ k, Times (sub.Matches input) least i k ∧
        ∃ m ≤ (greatest.map (· - least)).getD (input.length + 1),
          Times (sub.Matches input) m k j := by
  have hforward := forward_matches input sub
  simp only [Matches, times_add]
  constructor
  · rintro ⟨more, hmore, k, hk, hj⟩
    refine ⟨k, hk, ?_⟩
    cases greatest with
    | some n => exact ⟨more, hmore n rfl, hj⟩
    | none =>
      have hkn : k ≤ input.length := (hforward.times least i k hi hk).2
      obtain ⟨m, hm, hj⟩ := hforward.exists_times_le hkn hj
      have hjn : j ≤ input.length := (hforward.times m k j hkn hj).2
      exact ⟨m, by simp only [Option.map_none, Option.getD_none]; omega, hj⟩
  · rintro ⟨k, hk, m, hm, hj⟩
    refine ⟨m, ?_, k, hk, hj⟩
    rintro n rfl
    exact hm

/-- The plan of an expression follows what the expression matches. -/
theorem follows_run (input : List Char) (x : Expr) :
    Follows input (Plan.ofExpr input x).run (x.Matches input) := by
  induction x with
  | empty => exact .rest
  | text chars =>
    refine (Follows.move (occurrences input chars) chars.length).congr fun i j _ => ?_
    rw [testBit_occurrences, Matches]
  | set unicode s =>
    refine (Follows.move (placesBefore (fun c => s.mem c.toNat) input) 1).congr fun i j _ => ?_
    rw [testBit_placesBefore, Matches]
  | look l =>
    refine (Follows.stay (placesOf (placesOfLook l none input))).congr fun i j _ => ?_
    rw [testBit_placesOfLook, Matches]
  | repetition least greatest greedy sub ih =>
    have hforward := forward_matches input sub
    refine ((ih.stepTimes hforward least).comp (hforward.times least)
      (ih.stepUpTo hforward _)).congr fun i j hi => ?_
    rw [matches_repetition_iff hi]
  | capture index name sub ih => exact ih
  | concat parts ih =>
    show Follows input (Plan.runParts (Plan.ofExprs input parts)) (MatchesAll input parts)
    induction parts with
    | nil => exact .rest
    | cons x xs ihs =>
      have hx := ih x List.mem_cons_self
      have hxs := ihs fun y hy => ih y (List.mem_cons_of_mem x hy)
      exact (hx.comp (forward_matches input x) hxs :)
  | alternation branches ih =>
    show Follows input (Plan.runBranches (Plan.ofExprs input branches)) (MatchesAny input branches)
    induction branches with
    | nil =>
      intro p hp j
      simp [Plan.ofExprs, Plan.runBranches, MatchesAny]
    | cons x xs ihs =>
      have hx := ih x List.mem_cons_self
      have hxs := ihs fun y hy => ih y (List.mem_cons_of_mem x hy)
      exact (hx.or hxs :)

/-- **The engine finds a match exactly if there is one.** -/
theorem isMatch_iff_exists {x : Expr} :
    x.isMatch input = true ↔ ∃ i j, i ≤ input.length ∧ x.Matches input i j := by
  have hall : Within input (allPlaces input) := fun i hi => testBit_allPlaces.1 hi
  have hrun (j : Nat) := follows_run input x (allPlaces input) hall j
  simp only [testBit_allPlaces] at hrun
  rw [isMatch, bne_iff_ne]
  constructor
  · intro hne
    obtain ⟨j, hj⟩ := Nat.exists_testBit_of_ne_zero hne
    obtain ⟨i, hi, hij⟩ := (hrun j).1 hj
    exact ⟨i, j, hi, hij⟩
  · rintro ⟨i, j, hi, hij⟩ hzero
    have hj := (hrun j).2 ⟨i, hi, hij⟩
    rw [hzero, Nat.zero_testBit] at hj
    exact Bool.false_ne_true hj

end Expr

end TestSelection.Regex
