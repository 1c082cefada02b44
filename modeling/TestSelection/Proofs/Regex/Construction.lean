import TestSelection.Proofs.Regex.Matching
import TestSelection.Proofs.Results
import TestSelection.Proofs.Unicode.CodeSet
import TestSelection.Regex.Expr
import TestSelection.Regex.Pattern.Reader

/-!
# Expressions that are put together

The functions that build expressions simplify them on the way. What they build matches what the
plain expression would match: `matches_ofConcat`, `matches_ofSet`, `matches_ofRepetition` and
`matches_ofAlternation`.

Some of the simplifications rest on properties of the parts: the ranges of a set have to ascend for
it to be a text of one character, and the bounds of a repetition for its greatest length to tell
anything. `Sound` has these properties, and those that matter for printing. Whatever is built
from sound parts is sound.
-/

namespace TestSelection.Regex

open Unicode (CodeSet)

/-! ## Sound expressions -/

/-- The bounds of a repetition are in order, and no larger than a pattern can say. -/
structure Bounds (least : Nat) (greatest : Option Nat) : Prop where
  ordered : ∀ n ∈ greatest, least ≤ n
  least_lt : least < UInt32.size
  greatest_lt : ∀ n ∈ greatest, n < UInt32.size

theorem Bounds.of_le_one {least : Nat} {greatest : Option Nat}
    (hordered : ∀ n ∈ greatest, least ≤ n) (hleast : least ≤ 1)
    (hgreatest : ∀ n ∈ greatest, n ≤ 1) : Bounds least greatest where
  ordered := hordered
  least_lt := Nat.lt_of_le_of_lt hleast (by decide)
  greatest_lt n hn := Nat.lt_of_le_of_lt (hgreatest n hn) (by decide)

/-- The reader takes the text as the name of a group, up to the closing bracket. -/
structure IsGroupName (name : String) : Prop where
  ne_nil : name.toList ≠ []
  read : ∀ rest, readNameFrom true (name.toList ++ '>' :: rest) = .ok (name.toList, rest)

namespace Expr

variable {input : List Char} {i j : Nat}

/-- The expression is as expressions of patterns are. -/
inductive Sound : Expr → Prop
  | empty : Sound .empty
  | text {chars : List Char} (h : chars ≠ []) : Sound (.text chars)
  | set {unicode : Bool} {s : CodeSet} (htidy : s.Tidy)
      (hascii : unicode = false → s.isAscii = true) : Sound (.set unicode s)
  | look {l : Look} : Sound (.look l)
  | repetition {least : Nat} {greatest : Option Nat} {greedy : Bool} {sub : Expr}
      (hbounds : Bounds least greatest) (hsub : Sound sub) :
      Sound (.repetition least greatest greedy sub)
  | capture {index : Nat} {name : Option String} {sub : Expr}
      (hname : ∀ n ∈ name, IsGroupName n) (hsub : Sound sub) :
      Sound (.capture index name sub)
  | concat {parts : List Expr} (h : ∀ x ∈ parts, Sound x) : Sound (.concat parts)
  | alternation {branches : List Expr} (hne : branches ≠ [])
      (h : ∀ x ∈ branches, Sound x) : Sound (.alternation branches)

/-! ## Expressions that match the same -/

/-- Two expressions match the same. -/
def Agrees (x y : Expr) : Prop :=
  ∀ input i j, i ≤ input.length → (x.Matches input i j ↔ y.Matches input i j)

namespace Agrees

variable {x y z : Expr} {xs ys : List Expr}

theorem refl (x : Expr) : x.Agrees x := fun _ _ _ _ => Iff.rfl

theorem symm (h : x.Agrees y) : y.Agrees x := fun input i j hi => (h input i j hi).symm

theorem trans (h : x.Agrees y) (h' : y.Agrees z) : x.Agrees z :=
  fun input i j hi => (h input i j hi).trans (h' input i j hi)

theorem isMatch_iff (h : x.Agrees y) : x.isMatch input = true ↔ y.isMatch input = true := by
  simp only [isMatch_iff_exists]
  exact exists_congr fun i => exists_congr fun j => and_congr_right fun hi => h input i j hi

theorem capture {index index' : Nat} {name name' : Option String} (h : x.Agrees y) :
    (Expr.capture index name x).Agrees (.capture index' name' y) := h

theorem times (h : x.Agrees y) (n : Nat) (hi : i ≤ input.length) :
    Times (x.Matches input) n i j ↔ Times (y.Matches input) n i j := by
  induction n generalizing i with
  | zero => rfl
  | succ n ih =>
    simp only [Times]
    refine exists_congr fun k => ?_
    rw [h input i k hi]
    exact and_congr_right fun hk => ih (forward_matches input y i k hi hk).2

theorem repetition {least : Nat} {greatest : Option Nat} {greedy greedy' : Bool}
    (h : x.Agrees y) :
    (Expr.repetition least greatest greedy x).Agrees (.repetition least greatest greedy' y) :=
  fun _ _ _ hi => exists_congr fun _ => and_congr_right fun _ => h.times _ hi

theorem concat (h : List.Forall₂ Agrees xs ys) : (Expr.concat xs).Agrees (.concat ys) := by
  induction h with
  | nil => exact refl _
  | cons hx _ ih =>
    intro input i j hi
    simp only [Matches, MatchesAll]
    refine exists_congr fun k => ?_
    rw [hx input i k hi]
    exact and_congr_right fun hk => ih input k j (forward_matches input _ i k hi hk).2

theorem alternation (h : List.Forall₂ Agrees xs ys) :
    (Expr.alternation xs).Agrees (.alternation ys) := by
  induction h with
  | nil => exact refl _
  | cons hx _ ih => exact fun input i j hi => or_congr (hx input i j hi) (ih input i j hi)

end Agrees

/-! ## Concatenations -/

theorem matchesAll_nil : MatchesAll input [] i j ↔ i = j ∧ i ≤ input.length := by
  rw [MatchesAll]

theorem matchesAll_cons {x : Expr} {xs : List Expr} :
    MatchesAll input (x :: xs) i j ↔ ∃ k, x.Matches input i k ∧ MatchesAll input xs k j := by
  rw [MatchesAll]

theorem matchesAll_singleton {x : Expr} (hi : i ≤ input.length) :
    MatchesAll input [x] i j ↔ x.Matches input i j := by
  simp only [matchesAll_cons, matchesAll_nil]
  constructor
  · rintro ⟨k, hk, rfl, -⟩
    exact hk
  · intro hj
    exact ⟨j, hj, rfl, (forward_matches input x i j hi hj).2⟩

theorem matchesAll_append {xs ys : List Expr} (hi : i ≤ input.length) :
    MatchesAll input (xs ++ ys) i j ↔ ∃ k, MatchesAll input xs i k ∧ MatchesAll input ys k j := by
  induction xs generalizing i with
  | nil => simp [matchesAll_nil, hi]
  | cons x xs ih =>
    simp only [List.cons_append, matchesAll_cons]
    constructor
    · rintro ⟨l, hl, hj⟩
      obtain ⟨k, hk, hj⟩ := (ih (forward_matches input x i l hi hl).2).1 hj
      exact ⟨k, ⟨l, hl, hk⟩, hj⟩
    · rintro ⟨k, ⟨l, hl, hk⟩, hj⟩
      exact ⟨l, hl, (ih (forward_matches input x i l hi hl).2).2 ⟨k, hk, hj⟩⟩

theorem isPrefix_append_iff {α : Type} {a b l : List α} :
    a ++ b <+: l ↔ a <+: l ∧ b <+: l.drop a.length := by
  constructor
  · rintro ⟨rest, rfl⟩
    rw [List.append_assoc, List.drop_left]
    exact ⟨List.prefix_append _ _, List.prefix_append _ _⟩
  · rintro ⟨⟨rest, rfl⟩, hb⟩
    rw [List.drop_left] at hb
    exact (List.prefix_append_right_inj a).2 hb

/-- A text of two pieces matches by the first piece and then the second. -/
theorem matches_text_append {a b : List Char} :
    (Expr.text (a ++ b)).Matches input i j ↔
      ∃ k, (Expr.text a).Matches input i k ∧ (Expr.text b).Matches input k j := by
  simp only [Matches, isPrefix_append_iff, List.drop_drop, List.length_append]
  constructor
  · rintro ⟨rfl, hi, ha, hb⟩
    have hlength := ha.length_le
    rw [List.length_drop] at hlength
    exact ⟨i + a.length, ⟨rfl, hi, ha⟩, (Nat.add_assoc _ _ _).symm, by omega, hb⟩
  · rintro ⟨k, ⟨rfl, hi, ha⟩, rfl, -, hb⟩
    exact ⟨Nat.add_assoc _ _ _, hi, ha, hb⟩

/-- The function leaves texts as they are, and goes into concatenations. -/
structure KeepsText (f : Expr → Expr) : Prop where
  empty : f .empty = .empty
  text : ∀ chars, f (.text chars) = .text chars
  concat : ∀ parts, f (.concat parts) = .concat (parts.map f)

theorem keepsText_id : KeepsText id := ⟨rfl, fun _ => rfl, fun _ => by rw [List.map_id]; rfl⟩

/-! ### Flat concatenations

A concatenation is built from parts by flattening concatenations and joining texts. This changes
nothing in what is matched, also if each part has been changed by a function that keeps texts. -/

section

variable {f : Expr → Expr}

theorem matchesAll_partsOf (hf : KeepsText f) {x : Expr} (hi : i ≤ input.length) :
    MatchesAll input ((partsOf x).map f) i j ↔ (f x).Matches input i j := by
  cases x with
  | concat parts => rw [partsOf, hf.concat, Matches]
  | _ => exact matchesAll_singleton hi

theorem matchesAll_flatMap_partsOf (hf : KeepsText f) {parts : List Expr}
    (hi : i ≤ input.length) :
    MatchesAll input ((parts.flatMap partsOf).map f) i j ↔ MatchesAll input (parts.map f) i j := by
  induction parts generalizing i with
  | nil => rfl
  | cons x xs ih =>
    rw [List.flatMap_cons, List.map_append, matchesAll_append hi, List.map_cons, matchesAll_cons]
    refine exists_congr fun k => ?_
    rw [matchesAll_partsOf hf hi]
    exact and_congr_right fun hk => ih (forward_matches input _ i k hi hk).2

/-- A part that is put before others matches before them. -/
theorem matchesAll_prepend (hf : KeepsText f) {x : Expr} {xs : List Expr} (hi : i ≤ input.length) :
    MatchesAll input ((prepend x xs).map f) i j ↔
      ∃ k, (f x).Matches input i k ∧ MatchesAll input (xs.map f) k j := by
  rw [← matchesAll_cons]
  unfold prepend
  split
  · simp [hf.empty, matchesAll_cons, Matches, hi]
  · simp only [List.map_cons, hf.text, matchesAll_cons, matches_text_append]
    constructor
    · rintro ⟨l, ⟨k, hk, hl⟩, hj⟩
      exact ⟨k, hk, l, hl, hj⟩
    · rintro ⟨k, hk, l, hl, hj⟩
      exact ⟨l, ⟨k, hk, hl⟩, hj⟩
  · rfl

theorem matchesAll_foldr_prepend (hf : KeepsText f) {parts : List Expr} (hi : i ≤ input.length) :
    MatchesAll input ((parts.foldr prepend []).map f) i j ↔
      MatchesAll input (parts.map f) i j := by
  induction parts generalizing i with
  | nil => rfl
  | cons x xs ih =>
    rw [List.foldr_cons, matchesAll_prepend hf hi, List.map_cons, matchesAll_cons]
    exact exists_congr fun k =>
      and_congr_right fun hk => ih (forward_matches input _ i k hi hk).2

theorem matches_map_ofConcat (hf : KeepsText f) {parts : List Expr} (hi : i ≤ input.length) :
    (f (ofConcat parts)).Matches input i j ↔ MatchesAll input (parts.map f) i j := by
  rw [← matchesAll_flatMap_partsOf hf hi, ← matchesAll_foldr_prepend hf hi, ofConcat]
  split
  · next h => rw [h, hf.empty, List.map_nil, matchesAll_nil, Matches]
  · next x h => rw [h, List.map_singleton, matchesAll_singleton hi]
  · rw [hf.concat, Matches]

end

/-- A concatenation matches what its parts match, one after the other. -/
theorem matches_ofConcat {parts : List Expr} (hi : i ≤ input.length) :
    (ofConcat parts).Matches input i j ↔ MatchesAll input parts i j := by
  have hmap : (id (ofConcat parts)).Matches input i j ↔ MatchesAll input (parts.map id) i j :=
    matches_map_ofConcat keepsText_id hi
  rwa [List.map_id] at hmap

/-- What holds for the parts holds for the concatenation that is built from them, if it is a matter
of the parts of a concatenation and does not mind that texts are joined. -/
theorem ofConcat_of_parts {P : Expr → Prop} (hempty : P .empty)
    (htext : ∀ a b, P (.text a) → P (.text b) → P (.text (a ++ b)))
    (hconcat : ∀ parts, P (.concat parts) ↔ ∀ x ∈ parts, P x) {parts : List Expr}
    (h : ∀ x ∈ parts, P x) : P (ofConcat parts) := by
  have hpartsOf {x : Expr} (hx : P x) : ∀ y ∈ partsOf x, P y := by
    cases x with
    | concat parts => exact (hconcat parts).1 hx
    | _ => simpa [partsOf] using hx
  have hprepend {x : Expr} {xs : List Expr} (hx : P x) (hxs : ∀ y ∈ xs, P y) :
      ∀ y ∈ prepend x xs, P y := by
    unfold prepend
    split
    · exact hxs
    · rw [List.forall_mem_cons] at hxs ⊢
      exact ⟨htext _ _ hx hxs.1, hxs.2⟩
    · exact List.forall_mem_cons.2 ⟨hx, hxs⟩
  have hflat : ∀ y ∈ parts.flatMap partsOf, P y := by
    intro y hy
    obtain ⟨x, hx, hy⟩ := List.mem_flatMap.1 hy
    exact hpartsOf (h x hx) y hy
  have hjoined : ∀ y ∈ (parts.flatMap partsOf).foldr prepend [], P y := by
    generalize parts.flatMap partsOf = flat at hflat
    induction flat with
    | nil => simp
    | cons x xs ih =>
      rw [List.forall_mem_cons] at hflat
      exact hprepend hflat.1 (ih hflat.2)
  rw [ofConcat]
  split
  · exact hempty
  · next x heq => exact hjoined x (heq ▸ List.mem_cons_self)
  · exact (hconcat _).2 hjoined

theorem sound_concat_iff {parts : List Expr} :
    (Expr.concat parts).Sound ↔ ∀ x ∈ parts, x.Sound := by
  constructor
  · intro h
    cases h with
    | concat h => exact h
  · exact .concat

theorem sound_ofConcat {parts : List Expr} (h : ∀ x ∈ parts, x.Sound) :
    (ofConcat parts).Sound := by
  refine ofConcat_of_parts .empty ?_ (fun _ => sound_concat_iff) h
  intro a b ha _
  cases ha with
  | text ha => exact .text (by simp [ha])

/-! ## Sets -/

theorem matches_singleton {c : Char} :
    (Expr.text [c]).Matches input i j ↔ j = i + 1 ∧ input[i]? = some c := by
  rw [Matches, List.cons_prefix_iff, ← List.head?_drop]
  constructor
  · rintro ⟨hj, -, rest, hrest, -⟩
    exact ⟨hj, by rw [hrest, List.head?_cons]⟩
  · rintro ⟨hj, hhead⟩
    have hlt : i < input.length := by
      rw [List.head?_drop] at hhead
      exact (List.getElem?_eq_some_iff.1 hhead).1
    obtain ⟨rest, hrest⟩ := List.head?_eq_some_iff.1 hhead
    exact ⟨hj, Nat.le_of_lt hlt, rest, hrest, List.nil_prefix⟩

theorem matches_ofSet {unicode : Bool} {s : CodeSet} (hs : s.Tidy) :
    (ofSet unicode s).Matches input i j ↔ (Expr.set unicode s).Matches input i j := by
  unfold ofSet
  split
  · next h => simp [never, Matches, CodeSet.mem, CodeSet.empty, h]
  · next lo hi h =>
    by_cases heq : lo = hi
    · subst heq
      have hvalid : lo.isValidChar := (hs.bounded (lo, lo) (by simp [h])).1
      have hmem : ∀ c : Char, s.mem c.toNat = true ↔ c = Char.ofNat lo := by
        intro c
        rw [CodeSet.mem_iff hs, h]
        simp only [List.mem_singleton, exists_eq_left, CodeSet.Lies]
        constructor
        · rintro ⟨hlo, hhi⟩
          rw [← Nat.le_antisymm hhi hlo, Char.ofNat_toNat]
        · rintro rfl
          rw [Unicode.toNat_ofNat hvalid]
          exact ⟨Nat.le_refl lo, Nat.le_refl lo⟩
      rw [if_pos rfl, matches_singleton, Matches]
      simp only [hmem, exists_eq_right]
    · rw [if_neg heq]
  · rfl

theorem sound_ofSet {unicode : Bool} {s : CodeSet} (hs : s.Tidy)
    (hascii : unicode = false → s.isAscii = true) : (ofSet unicode s).Sound := by
  unfold ofSet
  split
  · exact .set CodeSet.tidy_empty fun _ => rfl
  · split_ifs
    · exact .text (List.cons_ne_nil _ _)
    · exact .set hs hascii
  · exact .set hs hascii

/-! ## Repetitions -/

theorem byteCount_pos (c : Nat) : 0 < byteCount c := by
  unfold byteCount
  split_ifs <;> decide

theorem le_foldl_byteCount (chars : List Char) (n : Nat) :
    n + chars.length ≤ chars.foldl (fun n c => n + byteCount c.toNat) n := by
  induction chars generalizing n with
  | nil => simp
  | cons c cs ih =>
    have hpos := byteCount_pos c.toNat
    have hrest := ih (n + byteCount c.toNat)
    rw [List.foldl_cons, List.length_cons]
    omega

theorem times_iff_of_stay {r : Nat → Nat → Prop} (h : ∀ i j, r i j → i = j) (n i j : Nat) :
    Times r n i j ↔ i = j ∧ (n = 0 ∨ r i i) := by
  induction n generalizing i with
  | zero => simp [Times]
  | succ n ih =>
    simp only [Times, ih]
    constructor
    · rintro ⟨k, hk, rfl, -⟩
      cases h i k hk
      exact ⟨rfl, .inr hk⟩
    · rintro ⟨rfl, hzero | hi⟩
      · omega
      · exact ⟨i, hi, rfl, .inr hi⟩

/-- What has the greatest length zero does not move on. -/
theorem stays_of_maxLength?_eq_zero {x : Expr} (hx : x.Sound) (h : maxLength? x = some 0) :
    ∀ i j, x.Matches input i j → i = j := by
  induction x with
  | empty => exact fun i j hij => hij.1
  | text chars =>
    rintro i j ⟨rfl, -⟩
    have hlength := le_foldl_byteCount chars 0
    rw [maxLength?, Option.some.injEq] at h
    omega
  | set unicode s =>
    simp only [maxLength?, Option.map_eq_some_iff] at h
    obtain ⟨r, -, hr⟩ := h
    exact absurd hr (byteCount_pos r.2).ne'
  | look l => exact fun i j hij => hij.1
  | repetition least greatest greedy sub ih =>
    cases hx with
    | repetition hbounds hsub =>
      rintro i j ⟨more, hmore, htimes⟩
      cases greatest with
      | none => simp [maxLength?] at h
      | some n =>
        cases hlength : maxLength? sub with
        | none => simp [maxLength?, hlength] at h
        | some m =>
          have hzero : n = 0 ∨ m = 0 := by simpa [maxLength?, hlength] using h
          rcases hzero with rfl | rfl
          · have hleast := hbounds.ordered 0 rfl
            have hmore := hmore 0 rfl
            have hnone : least + more = 0 := by omega
            rw [hnone] at htimes
            exact htimes
          · exact ((times_iff_of_stay (ih hsub hlength) _ i j).1 htimes).1
  | capture index name sub ih =>
    cases hx with
    | capture hname hsub => exact ih hsub h
  | concat parts ih =>
    cases hx with
    | concat hparts =>
      rw [maxLength?] at h
      show ∀ i j, MatchesAll input parts i j → i = j
      induction parts with
      | nil => exact fun i j hij => hij.1
      | cons x xs ihs =>
        rw [List.forall_mem_cons] at hparts ih
        cases hx : maxLength? x with
        | none => simp [maxLengthSum?, hx] at h
        | some m =>
          cases hxs : maxLengthSum? xs with
          | none => simp [maxLengthSum?, hx, hxs] at h
          | some n =>
            have hzero : m = 0 ∧ n = 0 := by simpa [maxLengthSum?, hx, hxs] using h
            obtain ⟨rfl, rfl⟩ := hzero
            rintro i j ⟨k, hk, hj⟩
            exact (ih.1 hparts.1 hx i k hk).trans (ihs ih.2 hxs hparts.2 k j hj)
  | alternation branches ih =>
    cases hx with
    | alternation hne hbranches =>
      rw [maxLength?] at h
      show ∀ i j, MatchesAny input branches i j → i = j
      clear hne
      induction branches with
      | nil => exact fun i j hij => hij.elim
      | cons x xs ihs =>
        rw [List.forall_mem_cons] at hbranches ih
        cases hx : maxLength? x with
        | none => simp [maxLengthOf?, hx] at h
        | some m =>
          cases hxs : maxLengthOf? xs with
          | none => simp [maxLengthOf?, hx, hxs] at h
          | some n =>
            have hzero : m = 0 ∧ n = 0 := by simpa [maxLengthOf?, hx, hxs] using h
            obtain ⟨rfl, rfl⟩ := hzero
            rintro i j (hij | hij)
            · exact ih.1 hbranches.1 hx i j hij
            · exact ihs ih.2 hxs hbranches.2 i j hij

theorem matches_repetition_none {greedy : Bool} {sub : Expr} :
    (Expr.repetition 0 (some 0) greedy sub).Matches input i j ↔ i = j := by
  simp only [Matches, Option.mem_def, Option.some.injEq]
  constructor
  · rintro ⟨more, hmore, htimes⟩
    have hzero : 0 + more = 0 := by
      have := hmore 0 rfl
      omega
    rw [hzero] at htimes
    exact htimes
  · intro hij
    exact ⟨0, fun _ _ => Nat.zero_le _, hij⟩

theorem matches_repetition_once {greedy : Bool} {sub : Expr} :
    (Expr.repetition 1 (some 1) greedy sub).Matches input i j ↔ sub.Matches input i j := by
  simp only [Matches, Option.mem_def, Option.some.injEq]
  constructor
  · rintro ⟨more, hmore, htimes⟩
    have hone : 1 + more = 1 := by
      have := hmore 1 rfl
      omega
    rw [hone] at htimes
    obtain ⟨k, hk, rfl⟩ := htimes
    exact hk
  · intro hij
    exact ⟨0, fun _ _ => Nat.zero_le _, j, hij, rfl⟩

/-- Repeating what does not move on is a matter of whether it has to match at all. -/
theorem matches_repetition_of_stay {least : Nat} {greatest : Option Nat} {greedy : Bool}
    {sub : Expr} (h : ∀ i j, sub.Matches input i j → i = j) :
    (Expr.repetition least greatest greedy sub).Matches input i j ↔
      i = j ∧ (least = 0 ∨ sub.Matches input i i) := by
  simp only [Matches, times_iff_of_stay h]
  constructor
  · rintro ⟨more, -, rfl, hnone | hi⟩
    · exact ⟨rfl, .inl (by omega)⟩
    · exact ⟨rfl, .inr hi⟩
  · rintro ⟨rfl, hsome⟩
    exact ⟨0, fun _ _ => Nat.zero_le _, rfl, hsome⟩

theorem matches_ofRepetition {least : Nat} {greatest : Option Nat} {greedy : Bool} {sub : Expr}
    (hsub : sub.Sound) (hi : i ≤ input.length) :
    (ofRepetition least greatest greedy sub).Matches input i j ↔
      (Expr.repetition least greatest greedy sub).Matches input i j := by
  -- the bounds with which the repetition is built
  have hbuilt (least : Nat) (greatest : Option Nat) :
      (if least = 0 ∧ greatest = some 0 then Expr.empty
        else if least = 1 ∧ greatest = some 1 then sub
        else .repetition least greatest greedy sub).Matches input i j ↔
          (Expr.repetition least greatest greedy sub).Matches input i j := by
    split_ifs with hnone honce
    · obtain ⟨rfl, rfl⟩ := hnone
      rw [matches_repetition_none, Matches]
      exact and_iff_left hi
    · obtain ⟨rfl, rfl⟩ := honce
      rw [matches_repetition_once]
    · rfl
  simp only [ofRepetition]
  rw [hbuilt]
  by_cases hempty : maxLength? sub = some 0
  · have hstay : ∀ i j, sub.Matches input i j → i = j :=
      stays_of_maxLength?_eq_zero hsub hempty
    simp only [hempty, if_true, matches_repetition_of_stay hstay]
    have hleast : min least 1 = 0 ↔ least = 0 := by omega
    rw [hleast]
  · simp only [hempty, if_false]

/-- Bounds that are cut to one are bounds. -/
theorem bounds_once {least : Nat} {greatest : Option Nat} (h : Bounds least greatest) :
    Bounds (min least 1) (some ((greatest.map (min · 1)).getD 1)) := by
  cases greatest with
  | none =>
    have hleast := Nat.min_le_right least 1
    refine .of_le_one ?_ hleast (by simp)
    rintro _ ⟨⟩
    exact hleast
  | some m =>
    have hm := h.ordered m rfl
    refine .of_le_one ?_ (Nat.min_le_right least 1) ?_
    · rintro _ ⟨⟩
      simp only [Option.map_some, Option.getD_some]
      omega
    · rintro _ ⟨⟩
      exact Nat.min_le_right m 1

theorem sound_ofRepetition {least : Nat} {greatest : Option Nat} {greedy : Bool} {sub : Expr}
    (hbounds : Bounds least greatest) (hsub : sub.Sound) :
    (ofRepetition least greatest greedy sub).Sound := by
  simp only [ofRepetition]
  split_ifs
  · exact .empty
  · exact hsub
  · exact .repetition (bounds_once hbounds) hsub
  · exact .empty
  · exact hsub
  · exact .repetition hbounds hsub

/-! ## Equal expressions -/

theorem eq_of_sameList {xs ys : List Expr} (ih : ∀ x ∈ xs, ∀ y, same x y = true → x = y)
    (h : sameList xs ys = true) : xs = ys := by
  induction xs generalizing ys with
  | nil => cases ys <;> simp_all [sameList]
  | cons x xs ihs =>
    cases ys with
    | nil => simp [sameList] at h
    | cons y ys =>
      rw [sameList, Bool.and_eq_true] at h
      rw [List.forall_mem_cons] at ih
      rw [ih.1 y h.1, ihs ih.2 h.2]

theorem eq_of_same (x y : Expr) (h : same x y = true) : x = y := by
  induction x generalizing y with
  | empty => cases y <;> simp_all [same]
  | text chars => cases y <;> simp_all [same]
  | set unicode s => cases y <;> simp_all [same]
  | look l => cases y <;> simp_all [same]
  | repetition least greatest greedy sub ih =>
    cases y <;> simp only [same, Bool.false_eq_true, Bool.and_eq_true, beq_iff_eq] at h
    obtain ⟨⟨⟨rfl, rfl⟩, rfl⟩, hsub⟩ := h
    rw [ih _ hsub]
  | capture index name sub ih =>
    cases y <;> simp only [same, Bool.false_eq_true, Bool.and_eq_true, beq_iff_eq] at h
    obtain ⟨⟨rfl, rfl⟩, hsub⟩ := h
    rw [ih _ hsub]
  | concat parts ih =>
    cases y <;> simp only [same, Bool.false_eq_true] at h
    rw [eq_of_sameList ih h]
  | alternation branches ih =>
    cases y <;> simp only [same, Bool.false_eq_true] at h
    rw [eq_of_sameList ih h]

/-! ## Alternations -/

theorem matchesAny_iff {branches : List Expr} :
    MatchesAny input branches i j ↔ ∃ x ∈ branches, x.Matches input i j := by
  induction branches with
  | nil => simp [MatchesAny]
  | cons x xs ih => rw [MatchesAny, ih, List.exists_mem_cons_iff]

theorem exists_mem_branchesOf_iff {x : Expr} :
    (∃ y ∈ branchesOf x, y.Matches input i j) ↔ x.Matches input i j := by
  cases x with
  | alternation branches => rw [branchesOf, Matches, matchesAny_iff]
  | _ => simp [branchesOf]

/-- Flattening alternations changes nothing in what a list of branches matches. -/
theorem exists_mem_flatMap_branchesOf_iff {branches : List Expr} :
    (∃ y ∈ branches.flatMap branchesOf, y.Matches input i j) ↔
      ∃ x ∈ branches, x.Matches input i j := by
  simp only [List.mem_flatMap]
  constructor
  · rintro ⟨y, ⟨x, hx, hy⟩, hij⟩
    exact ⟨x, hx, exists_mem_branchesOf_iff.1 ⟨y, hy, hij⟩⟩
  · rintro ⟨x, hx, hij⟩
    obtain ⟨y, hy, hij⟩ := exists_mem_branchesOf_iff.2 hij
    exact ⟨y, ⟨x, hx, hy⟩, hij⟩

theorem forall_sound_branchesOf {x : Expr} (h : x.Sound) :
    ∀ y ∈ branchesOf x, y.Sound := by
  cases x with
  | alternation branches =>
    cases h with
    | alternation hne h => exact h
  | _ => simpa [branchesOf] using h

theorem forall_sound_flatMap_branchesOf {branches : List Expr}
    (h : ∀ x ∈ branches, x.Sound) : ∀ y ∈ branches.flatMap branchesOf, y.Sound := by
  intro y hy
  obtain ⟨x, hx, hy⟩ := List.mem_flatMap.1 hy
  exact forall_sound_branchesOf (h x hx) y hy

/-! ### Alternations of characters and of sets -/

theorem singleChar?_eq_some_iff {x : Expr} {c : Char} : singleChar? x = some c ↔ x = .text [c] := by
  constructor
  · intro h
    unfold singleChar? at h
    split at h <;> simp_all
  · rintro rfl
    rfl

theorem setOf?_eq_some_iff {x : Expr} {s : CodeSet} :
    setOf? x = some s ↔ ∃ unicode, x = .set unicode s := by
  constructor
  · intro h
    unfold setOf? at h
    split at h
    · next unicode s' => exact ⟨unicode, by rw [Option.some.inj h]⟩
    · cases h
  · rintro ⟨unicode, rfl⟩
    rfl

/-- Characters side by side are a set of single characters. -/
theorem matches_ofRanges_iff {branches : List Expr} {chars : List Char}
    (h : branches.mapM singleChar? = some chars) :
    (Expr.set true (.ofRanges (chars.map fun c => (c.toNat, c.toNat)))).Matches input i j ↔
      ∃ x ∈ branches, x.Matches input i j := by
  have hbranches : branches = chars.map fun c => Expr.text [c] := by
    rw [mapM_eq_some_iff] at h
    induction h with
    | nil => rfl
    | cons hx _ ih => rw [List.map_cons, ← ih, singleChar?_eq_some_iff.1 hx]
  have hmem (c : Char) : (CodeSet.ofRanges (chars.map fun c => (c.toNat, c.toNat))).mem c.toNat =
      true ↔ c ∈ chars := by
    rw [CodeSet.mem_ofRanges (Unicode.isValidChar_toNat c)]
    simp only [List.mem_map, exists_exists_and_eq_and, CodeSet.Lies]
    constructor
    · rintro ⟨d, hd, hlo, hhi⟩
      rwa [← Char.toNat_inj.1 (Nat.le_antisymm hlo hhi)]
    · intro hc
      exact ⟨c, hc, Nat.le_refl _, Nat.le_refl _⟩
  rw [hbranches, Matches]
  simp only [hmem, List.mem_map, exists_exists_and_eq_and, matches_singleton]
  constructor
  · rintro ⟨hj, c, hinput, hc⟩
    exact ⟨c, hc, hj, hinput⟩
  · rintro ⟨c, hc, hj, hinput⟩
    exact ⟨hj, c, hinput, hc⟩

/-- Sets side by side are their union. -/
theorem matches_unions_iff {branches : List Expr} {sets : List CodeSet}
    (hwf : ∀ x ∈ branches, x.Sound) (h : branches.mapM setOf? = some sets) :
    (Expr.set true (.unions sets)).Matches input i j ↔ ∃ x ∈ branches, x.Matches input i j := by
  have hpairs := mapM_eq_some_iff.1 h
  have htidy : ∀ s ∈ sets, s.Tidy := by
    clear h
    induction hpairs with
    | nil => simp
    | cons hx _ ih =>
      rw [List.forall_mem_cons] at hwf ⊢
      obtain ⟨unicode, rfl⟩ := setOf?_eq_some_iff.1 hx
      cases hwf.1 with
      | set htidy _ => exact ⟨htidy, ih hwf.2⟩
  have hmem (c : Char) : (CodeSet.unions sets).mem c.toNat = true ↔ ∃ s ∈ sets, s.mem c.toNat :=
    CodeSet.mem_unions (Unicode.isValidChar_toNat c) htidy
  simp only [Matches, hmem]
  clear h hwf htidy hmem
  induction hpairs with
  | nil => simp
  | cons hx _ ih =>
    obtain ⟨unicode, rfl⟩ := setOf?_eq_some_iff.1 hx
    rw [List.exists_mem_cons_iff, Matches]
    refine Iff.trans ?_ (or_congr_right ih)
    simp only [List.exists_mem_cons_iff]
    constructor
    · rintro ⟨hj, c, hc, hs | hs⟩
      · exact .inl ⟨hj, c, hc, hs⟩
      · exact .inr ⟨hj, c, hc, hs⟩
    · rintro (⟨hj, c, hc, hs⟩ | ⟨hj, c, hc, hs⟩)
      · exact ⟨hj, c, hc, .inl hs⟩
      · exact ⟨hj, c, hc, .inr hs⟩

/-! ### Common starts -/

theorem commonParts_prefix_left (xs ys : List Expr) : commonParts xs ys <+: xs := by
  induction xs generalizing ys with
  | nil => simp [commonParts]
  | cons x xs ih =>
    cases ys with
    | nil => simp [commonParts]
    | cons y ys =>
      rw [commonParts]
      split_ifs
      · exact List.cons_prefix_cons.2 ⟨rfl, ih ys⟩
      · exact List.nil_prefix

theorem commonParts_prefix_right (xs ys : List Expr) : commonParts xs ys <+: ys := by
  induction xs generalizing ys with
  | nil => simp [commonParts]
  | cons x xs ih =>
    cases ys with
    | nil => simp [commonParts]
    | cons y ys =>
      rw [commonParts]
      split_ifs with hsame
      · exact List.cons_prefix_cons.2 ⟨eq_of_same x y hsame, ih ys⟩
      · exact List.nil_prefix

/-- Branches that have a common start are concatenations that start with it. -/
theorem begins_with_commonStart {branches : List Expr} (h : commonStart branches ≠ []) :
    ∀ x ∈ branches, ∃ parts, x = .concat parts ∧ commonStart branches <+: parts := by
  induction branches with
  | nil => simp
  | cons x rest ih =>
    cases x with
    | concat parts =>
      cases rest with
      | nil => simp [commonStart]
      | cons y rest =>
        have heq : commonStart (.concat parts :: y :: rest) =
            commonParts parts (commonStart (y :: rest)) := by
          rw [commonStart]
          exact List.cons_ne_nil y rest
        have hrest : commonStart (y :: rest) ≠ [] := by
          intro hnil
          rw [heq, hnil] at h
          exact h (by cases parts <;> rfl)
        rw [heq]
        refine List.forall_mem_cons.2 ⟨⟨parts, rfl, commonParts_prefix_left _ _⟩, ?_⟩
        intro z hz
        obtain ⟨parts', rfl, hbegins⟩ := ih hrest z hz
        exact ⟨parts', rfl, (commonParts_prefix_right _ _).trans hbegins⟩
    | _ => simp [commonStart] at h

theorem matches_concat_of_begins {start parts : List Expr} (h : start <+: parts)
    (hi : i ≤ input.length) :
    (Expr.concat parts).Matches input i j ↔
      ∃ k, MatchesAll input start i k ∧
        (dropParts start.length (.concat parts)).Matches input k j := by
  obtain ⟨rest, rfl⟩ := h
  have hforward (k : Nat) (hk : MatchesAll input start i k) : k ≤ input.length :=
    (forward_matches input (.concat start) i k hi hk).2
  rw [Matches, matchesAll_append hi, dropParts, List.drop_left]
  exact exists_congr fun k => and_congr_right fun hk => (matches_ofConcat (hforward k hk)).symm

theorem sound_dropParts {n : Nat} {x : Expr} (h : x.Sound) :
    (dropParts n x).Sound := by
  cases x with
  | concat parts =>
    cases h with
    | concat h => exact sound_ofConcat fun x hx => h x (List.mem_of_mem_drop hx)
  | _ => exact h

/-- What is built from branches is sound and matches what they match. -/
structure Alternates (branches : List Expr) (x : Expr) : Prop where
  sound : x.Sound
  matches_iff : ∀ input i j, i ≤ input.length →
    (x.Matches input i j ↔ ∃ y ∈ branches, y.Matches input i j)

theorem alternates_never : Alternates [] never where
  sound := .set CodeSet.tidy_empty fun _ => rfl
  matches_iff input i j _ := by simp [never, Matches, CodeSet.mem, CodeSet.empty, CodeSet.memRanges]

theorem alternates_singleton {x : Expr} (h : x.Sound) : Alternates [x] x where
  sound := h
  matches_iff input i j _ := by simp

theorem alternates_alternation {branches : List Expr} (hne : branches ≠ [])
    (h : ∀ x ∈ branches, x.Sound) : Alternates branches (.alternation branches) where
  sound := .alternation hne h
  matches_iff input i j _ := by rw [Matches, matchesAny_iff]

/-- A common start can be taken out of the branches. -/
theorem alternates_common {start branches : List Expr} {y : Expr} (hne : branches ≠ [])
    (hwf : ∀ x ∈ branches, x.Sound)
    (hstart : ∀ x ∈ branches, ∃ parts, x = .concat parts ∧ start <+: parts)
    (hy : Alternates ((branches.map (dropParts start.length)).flatMap branchesOf) y) :
    Alternates branches (ofConcat (start ++ [y])) where
  sound := by
    obtain ⟨x, hx⟩ := List.exists_mem_of_ne_nil branches hne
    obtain ⟨parts, rfl, hbegins⟩ := hstart x hx
    refine sound_ofConcat (List.forall_mem_append.2
      ⟨fun z hz => ?_, List.forall_mem_singleton.2 hy.sound⟩)
    cases hwf _ hx with
    | concat hparts => exact hparts z (hbegins.subset hz)
  matches_iff input i j hi := by
    have hforward (k : Nat) (hk : MatchesAll input start i k) : k ≤ input.length :=
      (forward_matches input (.concat start) i k hi hk).2
    have hrest (k : Nat) (hk : MatchesAll input start i k) : MatchesAll input [y] k j ↔
        ∃ x ∈ branches, (dropParts start.length x).Matches input k j := by
      rw [matchesAll_singleton (hforward k hk), hy.matches_iff input k j (hforward k hk),
        exists_mem_flatMap_branchesOf_iff]
      simp only [List.mem_map, exists_exists_and_eq_and]
    rw [matches_ofConcat hi, matchesAll_append hi]
    constructor
    · rintro ⟨k, hk, hj⟩
      obtain ⟨x, hx, hj⟩ := (hrest k hk).1 hj
      obtain ⟨parts, rfl, hbegins⟩ := hstart x hx
      exact ⟨_, hx, (matches_concat_of_begins hbegins hi).2 ⟨k, hk, hj⟩⟩
    · rintro ⟨x, hx, hij⟩
      obtain ⟨parts, rfl, hbegins⟩ := hstart x hx
      obtain ⟨k, hk, hj⟩ := (matches_concat_of_begins hbegins hi).1 hij
      exact ⟨k, hk, (hrest k hk).2 ⟨_, hx, hj⟩⟩

theorem alternates_ofBranches (steps : Nat) {branches : List Expr}
    (hwf : ∀ x ∈ branches, x.Sound) : Alternates branches (ofBranches steps branches) := by
  induction steps generalizing branches with
  | zero =>
    match branches with
    | [] => exact alternates_never
    | [x] => exact alternates_singleton (hwf x List.mem_cons_self)
    | x :: y :: rest => exact alternates_alternation (List.cons_ne_nil _ _) hwf
  | succ steps ih =>
    match branches with
    | [] => exact alternates_never
    | [x] => exact alternates_singleton (hwf x List.mem_cons_self)
    | x :: y :: rest =>
      have hne : x :: y :: rest ≠ [] := List.cons_ne_nil _ _
      rw [ofBranches]
      · generalize x :: y :: rest = branches at hwf hne
        split
        · next chars hchars =>
          have htidy := CodeSet.tidy_ofRanges (chars.map fun c => (c.toNat, c.toNat))
          exact ⟨sound_ofSet htidy (by simp),
            fun input i j _ => (matches_ofSet htidy).trans (matches_ofRanges_iff hchars)⟩
        · split
          · next sets hsets =>
            have htidy := CodeSet.tidy_unions sets
            exact ⟨sound_ofSet htidy (by simp),
              fun input i j _ => (matches_ofSet htidy).trans (matches_unions_iff hwf hsets)⟩
          · split
            · exact alternates_alternation hne hwf
            · next hstart =>
              have hrests : ∀ x ∈ branches.map (dropParts (commonStart branches).length),
                  x.Sound := by
                intro x hx
                obtain ⟨y, hy, rfl⟩ := List.mem_map.1 hx
                exact sound_dropParts (hwf y hy)
              exact alternates_common hne hwf (begins_with_commonStart hstart)
                (ih (forall_sound_flatMap_branchesOf hrests))
      · exact hne
      · simp

/-- An alternation matches what its branches match. -/
theorem alternates_ofAlternation {branches : List Expr} (hwf : ∀ x ∈ branches, x.Sound) :
    Alternates branches (ofAlternation branches) where
  sound :=
    (alternates_ofBranches _ (forall_sound_flatMap_branchesOf hwf)).sound
  matches_iff input i j hi := by
    have hbuilt := alternates_ofBranches (branches.flatMap branchesOf).length.succ
      (forall_sound_flatMap_branchesOf hwf)
    rw [ofAlternation, hbuilt.matches_iff input i j hi, exists_mem_flatMap_branchesOf_iff]

end Expr

end TestSelection.Regex
