import TestSelection.Proofs.Regex.Parsing
import TestSelection.Proofs.Regex.Printing

/-!
# Patterns match whole texts only

**Theorem (`Regex.isMatch_iff_matchesWhole`).** A pattern that can be used matches a text exactly if
the expression that is written there, read alone and under its own flags, matches the text from the
start to the end.

What is used is not that expression, but the anchored one, printed and read again. Three facts bring
the two together:

- the anchors are parts of a concatenation, not of a text, so nothing in the expression can reach
  them: an anchored expression matches the whole input or nothing (`matches_anchor`);
- the engine finds every match (`Expr.isMatch_iff_exists`);
- what is printed for the anchored expression means the same when it is read, but for lost options
  (`agrees_settled`).

That no option is lost is a condition of the theorem (`Expr.PrintsFaithfully`), for it is not true
of every expression (`not_printsFaithfully_optional_repetition`). The theorem says as well what
matches without this condition: the settled expression.
-/

namespace TestSelection.Regex

variable {input : List Char} {i j : Nat}

/-! ## Anchors -/

theorem Look.holdsAt_textStart_iff : Look.textStart.HoldsAt input i ↔ i = 0 := by
  simp only [Look.HoldsAt, Look.holds, Option.isNone_iff_eq_none]
  constructor
  · rintro ⟨hi, hbefore⟩
    by_cases hzero : i = 0
    · exact hzero
    · rw [if_neg hzero, List.getElem?_eq_none_iff] at hbefore
      omega
  · rintro rfl
    exact ⟨Nat.zero_le _, if_pos rfl⟩

theorem Look.holdsAt_textEnd_iff : Look.textEnd.HoldsAt input i ↔ i = input.length := by
  simp only [Look.HoldsAt, Look.holds, Option.isNone_iff_eq_none, List.getElem?_eq_none_iff]
  omega

section

variable {f : Expr → Expr} {x : Expr} (hf : Expr.KeepsText f) (hlook : ∀ l, f (.look l) = .look l)
include hf hlook

/-- An anchored expression matches the whole input or nothing, also if it has been changed by a
function that keeps texts and conditions. -/
theorem matches_anchor (hi : i ≤ input.length) :
    (f (anchor x)).Matches input i j ↔
      i = 0 ∧ j = input.length ∧ (f x).MatchesWhole input := by
  simp only [anchor, Expr.matches_map_ofConcat hf hi, List.map_cons, List.map_nil, hlook,
    Expr.matchesAll_cons, Expr.matchesAll_nil, Expr.Matches, Look.holdsAt_textStart_iff,
    Look.holdsAt_textEnd_iff, Expr.MatchesWhole]
  constructor
  · rintro ⟨_, ⟨rfl, rfl⟩, _, hx, _, ⟨rfl, rfl⟩, rfl, -⟩
    exact ⟨rfl, rfl, hx⟩
  · rintro ⟨rfl, rfl, hx⟩
    exact ⟨0, ⟨rfl, rfl⟩, _, hx, _, ⟨rfl, rfl⟩, rfl, Nat.le_refl _⟩

/-- An anchored expression has a match somewhere if the expression matches the whole input. -/
theorem isMatch_anchor_iff :
    (f (anchor x)).isMatch input = true ↔ (f x).MatchesWhole input := by
  rw [Expr.isMatch_iff_exists]
  constructor
  · rintro ⟨i, j, hi, h⟩
    exact ((matches_anchor hf hlook hi).1 h).2.2
  · intro h
    exact ⟨0, input.length, Nat.zero_le _,
      (matches_anchor hf hlook (Nat.zero_le _)).2 ⟨rfl, rfl, h⟩⟩

end

/-! ## Printing -/

/-- An option of a repetition is printed as a repetition that prefers few. -/
theorem not_printsFaithfully_optional_repetition :
    ¬ (Expr.repetition 0 (some 1) true
      (.repetition 1 none true (.text ['a']))).PrintsFaithfully := by
  intro h
  have hread : reread (.repetition 0 (some 1) true (.repetition 1 none true (.text ['a']))) =
      .ok (.repetition 1 none false (.text ['a'])) := rfl
  have hnone : (Expr.repetition 0 (some 1) true (.repetition 1 none true (.text ['a']))).Matches
      [] 0 0 := ⟨0, fun _ _ => Nat.zero_le _, rfl⟩
  obtain ⟨more, -, htimes⟩ := (h _ hread [] 0 0 (Nat.le_refl 0)).2 hnone
  rw [Nat.add_comm] at htimes
  obtain ⟨k, ⟨-, -, hbegins⟩, -⟩ := htimes
  simp at hbegins

/-! ## Whole texts -/

theorem compile_eq_ok {p : String} {y : Expr} (h : compile p = .ok y) :
    ∃ x, parse p = .ok x ∧ reread (anchor x) = .ok y := by
  obtain ⟨x, hx, hrest⟩ := bind_eq_ok_iff.1 h
  refine ⟨x, hx, ?_⟩
  cases hread : reread (anchor x) with
  | error e => simp [hread] at hrest
  | ok z =>
    simp only [hread] at hrest
    by_cases hlarge : Program.tooLarge z = true
    · simp [hlarge] at hrest
    · simp only [hlarge, Bool.false_eq_true, if_false, Except.ok.injEq] at hrest
      rw [hrest]

theorem source_of_ofString {p : String} {r : Regex} (h : Regex.ofString p = .ok r) :
    r.source = p := by
  unfold Regex.ofString at h
  split at h <;> cases h
  rfl

theorem wellFormed_anchor {x : Expr} (hx : x.WellFormed) : (anchor x).WellFormed where
  sound := Expr.sound_ofConcat (by simp [Expr.Sound.look, hx.sound])
  names := by
    rw [anchor, Expr.names_ofConcat]
    simpa [Expr.names] using hx.names

section

variable {r : Regex} {x : Expr}

/-- What is used of a pattern is read from the printed form of what is written in it, anchored. -/
theorem reread_anchor (h : parse r.source = .ok x) : reread (anchor x) = .ok r.expr := by
  obtain ⟨y, hparse, hread⟩ := compile_eq_ok r.compiles
  cases hparse.symm.trans h
  exact hread

/-- A pattern matches what the expression written in it matches as a whole, but for the options that
are lost when it is printed. -/
theorem isMatch_iff_settled (h : parse r.source = .ok x) (s : String) :
    r.isMatch s = true ↔ x.settled.MatchesWhole s.toList := by
  have hagrees : r.expr.Agrees (anchor x).settled :=
    agrees_settled (wellFormed_anchor (parse_wellFormed h)) (reread_anchor h)
  rw [Regex.isMatch, hagrees.isMatch_iff]
  exact isMatch_anchor_iff Expr.keepsText_settled fun _ => rfl

/-- A pattern of which no option is lost matches what the expression written in it matches as a
whole. -/
theorem isMatch_iff_of_printsFaithfully (h : parse r.source = .ok x)
    (hfaithful : (anchor x).PrintsFaithfully) (s : String) :
    r.isMatch s = true ↔ x.MatchesWhole s.toList := by
  have hagrees : r.expr.Agrees (anchor x) := hfaithful r.expr (reread_anchor h)
  rw [Regex.isMatch, hagrees.isMatch_iff]
  exact isMatch_anchor_iff Expr.keepsText_id fun _ => rfl

end

/-- **A pattern matches whole texts only.** It matches a text if what is written in the pattern,
read alone, matches the text from the start to the end. What is used for this is a printed form,
which has to mean what it was printed for; else, the options are missing that are lost. -/
theorem isMatch_iff_matchesWhole (p : String) (r : Regex) (h : Regex.ofString p = .ok r) :
    ∃ x, parse p = .ok x ∧
      (∀ s, r.isMatch s = true ↔ x.settled.MatchesWhole s.toList) ∧
      ((anchor x).PrintsFaithfully → ∀ s, r.isMatch s = true ↔ x.MatchesWhole s.toList) := by
  obtain rfl := source_of_ofString h
  obtain ⟨x, hparse, -⟩ := compile_eq_ok r.compiles
  exact ⟨x, hparse, isMatch_iff_settled hparse, isMatch_iff_of_printsFaithfully hparse⟩

/-- A pattern with alternatives of which one begins like the other, with a flag and a comment: the
longer alternative matches, and nothing follows it. -/
theorem isMatch_iff_matchesWhole_sample :
    ∃ r, Regex.ofString "(?x) a | ab # comment" = .ok r ∧
      r.isMatch "ab" = true ∧ r.isMatch "ab\n" = false := by
  obtain ⟨r, hr⟩ : ∃ r, Regex.ofString "(?x) a | ab # comment" = .ok r :=
    exists_eq_ok_of_isOk (by decide +kernel)
  obtain ⟨x, hx, -, hmatch⟩ := isMatch_iff_matchesWhole _ r hr
  have hparse : parse "(?x) a | ab # comment" =
      .ok (.alternation [.text ['a'], .text ['a', 'b']]) := rfl
  cases hparse.symm.trans hx
  have hread : reread (anchor (.alternation [.text ['a'], .text ['a', 'b']])) =
      .ok (anchor (.alternation [.text ['a'], .text ['a', 'b']])) := rfl
  have hfaithful : (anchor (.alternation [.text ['a'], .text ['a', 'b']])).PrintsFaithfully :=
    (printsFaithfully_iff (wellFormed_anchor (parse_wellFormed hparse)) hread).2 (.refl _)
  refine ⟨r, hr, (hmatch hfaithful "ab").2 ?_, ?_⟩
  · exact .inr (.inl ⟨rfl, Nat.zero_le _, by decide⟩)
  · rw [← Bool.not_eq_true, hmatch hfaithful]
    rintro (⟨hlength, -⟩ | ⟨hlength, -⟩ | h)
    · exact absurd hlength (by decide)
    · exact absurd hlength (by decide)
    · exact h

end TestSelection.Regex
