import Mathlib.Data.List.Basic
import TestSelection.Unicode.CodeSet

/-!
# Tidy sets of characters

A set is *tidy* if its ranges ascend and begin and end at characters (`CodeSet.Tidy`). For such a
set, a code point is a member exactly if it lies in one of the ranges (`CodeSet.mem_iff`). Every
operation on sets keeps them tidy.
-/

namespace TestSelection.Unicode

theorem toNat_ofNat {n : Nat} (h : n.isValidChar) : (Char.ofNat n).toNat = n := by
  rw [Char.ofNat, dif_pos h]
  rfl

theorem isValidChar_toNat (c : Char) : c.toNat.isValidChar := c.valid

namespace CodeSet

variable {c lo hi : Nat} {r : Nat × Nat} {ranges : List (Nat × Nat)} {s t : CodeSet}
  {sets : List CodeSet}

/-- A code point lies in a range. -/
def Lies (c : Nat) (r : Nat × Nat) : Prop := r.1 ≤ c ∧ c ≤ r.2

/-- No range is empty, and each ends before the next begins. -/
structure Ascend (ranges : List (Nat × Nat)) : Prop where
  proper : ∀ r ∈ ranges, r.1 ≤ r.2
  apart : ranges.Pairwise fun a b => a.2 < b.1

/-- The range begins and ends at a character. -/
def Bounded (r : Nat × Nat) : Prop := r.1.isValidChar ∧ r.2.isValidChar

/-- The ranges ascend, and each begins and ends at a character. -/
structure Tidy (s : CodeSet) : Prop where
  ascend : Ascend s.ranges
  bounded : ∀ r ∈ s.ranges, Bounded r

/-! ## Membership -/

theorem Ascend.tail (h : Ascend (r :: ranges)) : Ascend ranges :=
  ⟨fun r' h' => h.proper r' (List.mem_cons_of_mem r h'), (List.pairwise_cons.1 h.apart).2⟩

theorem memRanges_iff (h : Ascend ranges) :
    memRanges c ranges = true ↔ ∃ r ∈ ranges, Lies c r := by
  induction ranges with
  | nil => simp [memRanges]
  | cons r rest ih =>
    obtain ⟨lo, hi⟩ := r
    have hlater : ∀ r ∈ rest, hi < r.1 := (List.pairwise_cons.1 h.apart).1
    have hproper : lo ≤ hi := h.proper _ List.mem_cons_self
    rw [memRanges, List.exists_mem_cons_iff]
    by_cases hlo : c < lo
    · have hfirst : ¬ Lies c (lo, hi) := fun hlies => Nat.not_le.2 hlo hlies.1
      have hrest : ¬ ∃ r ∈ rest, Lies c r := by
        rintro ⟨r, hr, hlies⟩
        have hr1 : r.1 ≤ c := hlies.1
        have hhi := hlater r hr
        omega
      simp [hlo, hfirst, hrest]
    · by_cases hhi : c ≤ hi
      · have hfirst : Lies c (lo, hi) := ⟨Nat.not_lt.1 hlo, hhi⟩
        simp [hlo, hhi, hfirst]
      · have hfirst : ¬ Lies c (lo, hi) := fun hlies => hhi hlies.2
        simp [hlo, hhi, hfirst, ih h.tail]

theorem mem_iff (h : s.Tidy) : s.mem c = true ↔ ∃ r ∈ s.ranges, Lies c r :=
  memRanges_iff h.ascend

/-! ## Ranges in any order -/

theorem exists_lies_joinFrom (hproper : lo ≤ hi) (hrest : ∀ r ∈ ranges, lo ≤ r.1 ∧ r.1 ≤ r.2)
    (hordered : ranges.Pairwise fun a b => a.1 ≤ b.1) :
    (∃ r ∈ joinFrom lo hi ranges, Lies c r) ↔ Lies c (lo, hi) ∨ ∃ r ∈ ranges, Lies c r := by
  induction ranges generalizing lo hi with
  | nil => simp [joinFrom]
  | cons r rest ih =>
    obtain ⟨lo', hi'⟩ := r
    obtain ⟨hlo, hproper'⟩ := hrest _ List.mem_cons_self
    obtain ⟨hhead, htail⟩ := List.pairwise_cons.1 hordered
    have hlater : ∀ r ∈ rest, lo' ≤ r.1 ∧ r.1 ≤ r.2 :=
      fun r hr => ⟨hhead r hr, (hrest r (List.mem_cons_of_mem _ hr)).2⟩
    simp only at hlo hproper'
    rw [joinFrom, List.exists_mem_cons_iff]
    by_cases htouch : lo' ≤ hi + 1
    · have hboth : Lies c (lo, max hi hi') ↔ Lies c (lo, hi) ∨ Lies c (lo', hi') := by
        simp only [Lies]
        omega
      rw [if_pos htouch, ih (by omega) (fun r hr => ⟨Nat.le_trans hlo (hlater r hr).1,
        (hlater r hr).2⟩) htail, hboth, or_assoc]
    · rw [if_neg htouch, List.exists_mem_cons_iff, ih hproper' hlater htail]

/-- Joined ranges begin where a range began, and end where a range ended. -/
theorem forall_joinFrom {P Q : Nat → Prop} (h : ∀ r ∈ (lo, hi) :: ranges, P r.1 ∧ Q r.2) :
    ∀ r ∈ joinFrom lo hi ranges, P r.1 ∧ Q r.2 := by
  induction ranges generalizing lo hi with
  | nil => exact h
  | cons r rest ih =>
    obtain ⟨lo', hi'⟩ := r
    simp only [List.forall_mem_cons] at h
    obtain ⟨⟨hlo, hhi⟩, ⟨hlo', hhi'⟩, hrest⟩ := h
    rw [joinFrom]
    by_cases htouch : lo' ≤ hi + 1
    · rw [if_pos htouch]
      refine ih (List.forall_mem_cons.2 ⟨⟨hlo, ?_⟩, hrest⟩)
      rcases Nat.le_total hi hi' with hle | hle
      · rwa [Nat.max_eq_right hle]
      · rwa [Nat.max_eq_left hle]
    · rw [if_neg htouch, List.forall_mem_cons]
      exact ⟨⟨hlo, hhi⟩, ih (List.forall_mem_cons.2 ⟨⟨hlo', hhi'⟩, hrest⟩)⟩

theorem ascend_joinFrom (hproper : lo ≤ hi) (hrest : ∀ r ∈ ranges, r.1 ≤ r.2)
    (hordered : ranges.Pairwise fun a b => a.1 ≤ b.1) : Ascend (joinFrom lo hi ranges) := by
  induction ranges generalizing lo hi with
  | nil => exact ⟨by simpa [joinFrom] using hproper, List.pairwise_singleton _ _⟩
  | cons r rest ih =>
    obtain ⟨lo', hi'⟩ := r
    have hproper' : lo' ≤ hi' := hrest _ List.mem_cons_self
    obtain ⟨hhead, htail⟩ := List.pairwise_cons.1 hordered
    have hlater : ∀ r ∈ rest, r.1 ≤ r.2 := fun r hr => hrest r (List.mem_cons_of_mem _ hr)
    rw [joinFrom]
    by_cases htouch : lo' ≤ hi + 1
    · rw [if_pos htouch]
      exact ih (by omega) hlater htail
    · rw [if_neg htouch]
      have hjoined : Ascend (joinFrom lo' hi' rest) := ih hproper' hlater htail
      have hbelow : ∀ r ∈ joinFrom lo' hi' rest, lo' ≤ r.1 ∧ True :=
        forall_joinFrom (Q := fun _ => True) (List.forall_mem_cons.2
          ⟨⟨Nat.le_refl lo', trivial⟩, fun r hr => ⟨hhead r hr, trivial⟩⟩)
      refine ⟨List.forall_mem_cons.2 ⟨hproper, hjoined.proper⟩,
        List.pairwise_cons.2 ⟨fun r hr => ?_, hjoined.apart⟩⟩
      have hr1 := (hbelow r hr).1
      show hi < r.1
      omega

/-- The order in which ranges are joined. -/
theorem ordered_mergeSort (ranges : List (Nat × Nat)) :
    (ranges.mergeSort fun a b => a.1 < b.1 || (a.1 == b.1 && a.2 ≤ b.2)).Pairwise
      fun a b => a.1 ≤ b.1 := by
  refine (List.pairwise_mergeSort ?_ ?_ ranges).imp ?_
  · intro a b c hab hbc
    simp only [Bool.or_eq_true, Bool.and_eq_true, decide_eq_true_eq, beq_iff_eq] at hab hbc ⊢
    omega
  · intro a b
    simp only [Bool.or_eq_true, Bool.and_eq_true, decide_eq_true_eq, beq_iff_eq]
    omega
  · intro a b hab
    simp only [Bool.or_eq_true, Bool.and_eq_true, decide_eq_true_eq, beq_iff_eq] at hab
    omega

theorem of_clip? {r' : Nat × Nat} (h : clip? r = some r') : r'.1 ≤ r'.2 ∧ Bounded r' := by
  simp only [clip?, Option.ite_none_right_eq_some, Option.some.injEq] at h
  obtain ⟨hle, rfl⟩ := h
  simp only [Bounded, Nat.isValidChar, maxCode] at hle ⊢
  split_ifs at hle ⊢ <;> omega

/-- Clipping a range takes no character from it. -/
theorem exists_clip?_lies_iff (hc : c.isValidChar) :
    (∃ r', clip? r = some r' ∧ Lies c r') ↔ Lies c r := by
  simp only [clip?, Option.ite_none_right_eq_some, Option.some.injEq]
  constructor
  · rintro ⟨_, ⟨hle, rfl⟩, hlies⟩
    simp only [Lies, maxCode, Nat.isValidChar] at hle hlies hc ⊢
    split_ifs at hlies <;> omega
  · intro hlies
    refine ⟨_, ⟨?_, rfl⟩, ?_⟩ <;>
    · simp only [Lies, maxCode, Nat.isValidChar] at hlies hc ⊢
      split_ifs <;> omega

/-- What joining ranges comes to: they are clipped and sorted, and joined from the first one on. -/
theorem ranges_ofRanges (ranges : List (Nat × Nat)) :
    (ranges.filterMap clip? = [] ∧ (ofRanges ranges).ranges = []) ∨
      ∃ lo hi rest, ((lo, hi) :: rest).Perm (ranges.filterMap clip?) ∧
        ((lo, hi) :: rest).Pairwise (fun a b => a.1 ≤ b.1) ∧
        (ofRanges ranges).ranges = joinFrom lo hi rest := by
  have hperm := List.mergeSort_perm (ranges.filterMap clip?)
    fun a b => a.1 < b.1 || (a.1 == b.1 && a.2 ≤ b.2)
  have hordered := ordered_mergeSort (ranges.filterMap clip?)
  simp only [ofRanges]
  generalize (ranges.filterMap clip?).mergeSort
    (fun a b => a.1 < b.1 || (a.1 == b.1 && a.2 ≤ b.2)) = sorted at *
  cases sorted with
  | nil => exact .inl ⟨hperm.symm.eq_nil, rfl⟩
  | cons r rest => exact .inr ⟨r.1, r.2, rest, hperm, hordered, rfl⟩

theorem forall_ofRanges {P Q : Nat → Prop} (h : ∀ r ∈ ranges.filterMap clip?, P r.1 ∧ Q r.2) :
    ∀ r ∈ (ofRanges ranges).ranges, P r.1 ∧ Q r.2 := by
  rcases ranges_ofRanges ranges with ⟨-, hnone⟩ | ⟨lo, hi, rest, hperm, -, heq⟩
  · simp [hnone]
  · rw [heq]
    exact forall_joinFrom fun r hr => h r (hperm.mem_iff.1 hr)

theorem tidy_ofRanges (ranges : List (Nat × Nat)) : (ofRanges ranges).Tidy := by
  have hclip : ∀ r ∈ ranges.filterMap clip?, r.1 ≤ r.2 ∧ Bounded r := by
    intro r hr
    obtain ⟨r', -, hr'⟩ := List.mem_filterMap.1 hr
    exact of_clip? hr'
  refine ⟨?_, forall_ofRanges fun r hr => (hclip r hr).2⟩
  rcases ranges_ofRanges ranges with ⟨-, hnone⟩ | ⟨lo, hi, rest, hperm, hordered, heq⟩
  · rw [hnone]
    exact ⟨by simp, List.Pairwise.nil⟩
  · have hproper : ∀ r ∈ (lo, hi) :: rest, r.1 ≤ r.2 :=
      fun r hr => (hclip r (hperm.mem_iff.1 hr)).1
    rw [List.forall_mem_cons] at hproper
    rw [heq]
    exact ascend_joinFrom hproper.1 hproper.2 (List.pairwise_cons.1 hordered).2

/-- The set of a list of ranges has the characters that lie in one of them. -/
theorem mem_ofRanges (hc : c.isValidChar) :
    (ofRanges ranges).mem c = true ↔ ∃ r ∈ ranges, Lies c r := by
  have hclipped : (∃ r ∈ ranges.filterMap clip?, Lies c r) ↔ ∃ r ∈ ranges, Lies c r := by
    simp only [List.mem_filterMap]
    constructor
    · rintro ⟨r', ⟨r, hr, hr'⟩, hlies⟩
      exact ⟨r, hr, (exists_clip?_lies_iff hc).1 ⟨r', hr', hlies⟩⟩
    · rintro ⟨r, hr, hlies⟩
      obtain ⟨r', hr', hlies⟩ := (exists_clip?_lies_iff hc).2 hlies
      exact ⟨r', ⟨r, hr, hr'⟩, hlies⟩
  rw [mem_iff (tidy_ofRanges ranges), ← hclipped]
  rcases ranges_ofRanges ranges with ⟨hnil, hnone⟩ | ⟨lo, hi, rest, hperm, hordered, heq⟩
  · rw [hnil, hnone]
  · have hproper : ∀ r ∈ (lo, hi) :: rest, r.1 ≤ r.2 := by
      intro r hr
      obtain ⟨r', -, hr'⟩ := List.mem_filterMap.1 (hperm.mem_iff.1 hr)
      exact (of_clip? hr').1
    rw [List.forall_mem_cons] at hproper
    obtain ⟨hhead, htail⟩ := List.pairwise_cons.1 hordered
    rw [heq, exists_lies_joinFrom hproper.1 (fun r hr => ⟨hhead r hr, hproper.2 r hr⟩) htail,
      ← List.exists_mem_cons_iff]
    simp only [hperm.mem_iff]

/-! ## ASCII -/

theorem isAscii_iff : s.isAscii = true ↔ ∀ r ∈ s.ranges, r.2 ≤ 0x7F := by
  simp only [isAscii, List.all_eq_true, decide_eq_true_eq]

theorem isAscii_ofRanges (h : ∀ r ∈ ranges, r.2 ≤ 0x7F) : (ofRanges ranges).isAscii = true := by
  have hclipped : ∀ r ∈ ranges.filterMap clip?, True ∧ r.2 ≤ 0x7F := by
    intro r' hr'
    obtain ⟨r, hr, hclip⟩ := List.mem_filterMap.1 hr'
    have hupper := h r hr
    simp only [clip?, Option.ite_none_right_eq_some, Option.some.injEq] at hclip
    obtain ⟨-, rfl⟩ := hclip
    refine ⟨trivial, ?_⟩
    dsimp only
    split_ifs <;> omega
  exact isAscii_iff.2 fun r hr =>
    (forall_ofRanges (P := fun _ => True) (Q := (· ≤ 0x7F)) hclipped r hr).2

theorem isAscii_iff_forall_mem (h : s.Tidy) :
    s.isAscii = true ↔ ∀ c, c.isValidChar → s.mem c = true → c ≤ 0x7F := by
  simp only [isAscii_iff, mem_iff h]
  constructor
  · rintro hupper c - ⟨r, hr, hlies⟩
    exact Nat.le_trans hlies.2 (hupper r hr)
  · intro hmem r hr
    exact hmem r.2 (h.bounded r hr).2 ⟨r, hr, h.ascend.proper r hr, Nat.le_refl _⟩

/-! ## Single characters, ranges and unions -/

theorem tidy_empty : empty.Tidy := ⟨⟨by simp [empty], List.Pairwise.nil⟩, by simp [empty]⟩

theorem tidy_range (hproper : lo ≤ hi) (hbounded : Bounded (lo, hi)) : (range lo hi).Tidy :=
  ⟨⟨by simpa [range] using hproper, List.pairwise_singleton _ _⟩, by simpa [range] using hbounded⟩

theorem tidy_single (hc : c.isValidChar) : (single c).Tidy := tidy_range (Nat.le_refl c) ⟨hc, hc⟩

theorem tidy_all : all.Tidy := tidy_range (Nat.zero_le _) ⟨.inl (by decide), .inr (by decide)⟩

theorem tidy_unions (sets : List CodeSet) : (unions sets).Tidy := tidy_ofRanges _

theorem mem_unions (hc : c.isValidChar) (h : ∀ s ∈ sets, s.Tidy) :
    (unions sets).mem c = true ↔ ∃ s ∈ sets, s.mem c = true := by
  rw [unions, mem_ofRanges hc]
  constructor
  · rintro ⟨r, hr, hlies⟩
    obtain ⟨s, hs, hr⟩ := List.mem_flatMap.1 hr
    exact ⟨s, hs, (mem_iff (h s hs)).2 ⟨r, hr, hlies⟩⟩
  · rintro ⟨s, hs, hmem⟩
    obtain ⟨r, hr, hlies⟩ := (mem_iff (h s hs)).1 hmem
    exact ⟨r, List.mem_flatMap.2 ⟨s, hs, hr⟩, hlies⟩

theorem tidy_union (hs : s.Tidy) (ht : t.Tidy) : (s.union t).Tidy := by
  unfold union
  split_ifs
  · exact ht
  · exact hs
  · exact tidy_ofRanges _

/-! ## Common parts -/

/-- A common range lies in a range of each list, and reaches as far as both do. -/
theorem of_mem_interRanges {steps : Nat} {xs ys : List (Nat × Nat)} :
    r ∈ interRanges steps xs ys →
      r.1 ≤ r.2 ∧ ∃ x ∈ xs, ∃ y ∈ ys, r.1 = max x.1 y.1 ∧ r.2 = min x.2 y.2 := by
  induction steps generalizing xs ys with
  | zero => simp [interRanges]
  | succ steps ih =>
    cases xs with
    | nil => simp [interRanges]
    | cons x xs =>
      cases ys with
      | nil => simp [interRanges]
      | cons y ys =>
        obtain ⟨a, b⟩ := x
        obtain ⟨c, d⟩ := y
        -- the ranges that are found after this step
        have hrest : r ∈ (if b < d then interRanges steps xs ((c, d) :: ys)
            else interRanges steps ((a, b) :: xs) ys) →
              r.1 ≤ r.2 ∧ ∃ x ∈ (a, b) :: xs, ∃ y ∈ (c, d) :: ys,
                r.1 = max x.1 y.1 ∧ r.2 = min x.2 y.2 := by
          intro hr
          split_ifs at hr
          · obtain ⟨hproper, x, hx, y, hy, hends⟩ := ih hr
            exact ⟨hproper, x, List.mem_cons_of_mem _ hx, y, hy, hends⟩
          · obtain ⟨hproper, x, hx, y, hy, hends⟩ := ih hr
            exact ⟨hproper, x, hx, y, List.mem_cons_of_mem _ hy, hends⟩
        simp only [interRanges]
        intro hr
        by_cases hcommon : max a c ≤ min b d
        · rw [if_pos hcommon] at hr
          rcases List.mem_cons.1 hr with rfl | hr
          · exact ⟨hcommon, (a, b), List.mem_cons_self, (c, d), List.mem_cons_self, rfl, rfl⟩
          · exact hrest hr
        · rw [if_neg hcommon] at hr
          exact hrest hr

theorem ascend_interRanges {steps : Nat} {xs ys : List (Nat × Nat)} (hx : Ascend xs)
    (hy : Ascend ys) : Ascend (interRanges steps xs ys) := by
  refine ⟨fun r hr => (of_mem_interRanges hr).1, ?_⟩
  induction steps generalizing xs ys with
  | zero => exact List.Pairwise.nil
  | succ steps ih =>
    cases xs with
    | nil => exact List.Pairwise.nil
    | cons x xs =>
      cases ys with
      | nil => exact List.Pairwise.nil
      | cons y ys =>
        obtain ⟨a, b⟩ := x
        obtain ⟨c, d⟩ := y
        have hlaterx : ∀ x ∈ xs, b < x.1 := (List.pairwise_cons.1 hx.apart).1
        have hlatery : ∀ y ∈ ys, d < y.1 := (List.pairwise_cons.1 hy.apart).1
        simp only [interRanges]
        -- what is found later begins after the range that ends first
        have hrest : (if b < d then interRanges steps xs ((c, d) :: ys)
            else interRanges steps ((a, b) :: xs) ys).Pairwise (fun a b => a.2 < b.1) ∧
              ∀ r ∈ (if b < d then interRanges steps xs ((c, d) :: ys)
                else interRanges steps ((a, b) :: xs) ys), min b d < r.1 := by
          split_ifs with hends
          · refine ⟨ih hx.tail hy, fun r hr => ?_⟩
            obtain ⟨-, x, hx, y, hy, hlo, -⟩ := of_mem_interRanges hr
            have := hlaterx x hx
            omega
          · refine ⟨ih hx hy.tail, fun r hr => ?_⟩
            obtain ⟨-, x, hx, y, hy, hlo, -⟩ := of_mem_interRanges hr
            have := hlatery y hy
            omega
        split_ifs at hrest ⊢
        all_goals first
          | exact List.pairwise_cons.2 ⟨hrest.2, hrest.1⟩
          | exact hrest.1

theorem tidy_inter (hs : s.Tidy) (ht : t.Tidy) : (s.inter t).Tidy := by
  refine ⟨ascend_interRanges hs.ascend ht.ascend, fun r hr => ?_⟩
  obtain ⟨-, x, hx, y, hy, hlo, hhi⟩ := of_mem_interRanges hr
  obtain ⟨hxlo, hxhi⟩ := hs.bounded x hx
  obtain ⟨hylo, hyhi⟩ := ht.bounded y hy
  constructor
  · rw [hlo]
    rcases Nat.le_total x.1 y.1 with hle | hle
    · rwa [Nat.max_eq_right hle]
    · rwa [Nat.max_eq_left hle]
  · rw [hhi]
    rcases Nat.le_total x.2 y.2 with hle | hle
    · rwa [Nat.min_eq_left hle]
    · rwa [Nat.min_eq_right hle]

/-! ## Gaps -/

/-- The range begins and ends at a character, or with the surrogates. -/
def NearlyBounded (r : Nat × Nat) : Prop :=
  (r.1.isValidChar ∨ r.1 = 0xD800) ∧ (r.2.isValidChar ∨ r.2 = 0xDFFF)

theorem Bounded.nearly (h : Bounded r) : NearlyBounded r := ⟨.inl h.1, .inl h.2⟩

theorem NearlyBounded.succCode_upper (h : NearlyBounded r) :
    (succCode r.2).isValidChar ∨ succCode r.2 = maxCode + 1 := by
  obtain ⟨-, hhi⟩ := h
  simp only [Nat.isValidChar, succCode, maxCode] at hhi ⊢
  split_ifs <;> omega

theorem NearlyBounded.predCode_lower (h : NearlyBounded r) (hpos : 0 < r.1) :
    (predCode r.1).isValidChar := by
  obtain ⟨hlo, -⟩ := h
  simp only [Nat.isValidChar, predCode] at hlo ⊢
  split_ifs <;> omega

theorem le_predCode {start : Nat} (hstart : start.isValidChar) (h : start < lo) :
    start ≤ predCode lo := by
  simp only [Nat.isValidChar, predCode] at hstart ⊢
  split_ifs <;> omega

theorem succCode_le_succCode (h : hi < r.2) (hr : NearlyBounded r) :
    succCode hi ≤ succCode r.2 := by
  obtain ⟨-, hr⟩ := hr
  simp only [Nat.isValidChar, succCode] at hr ⊢
  split_ifs <;> omega

/-- The gaps between ranges that ascend are tidy, and begin where they are asked to. -/
theorem tidy_gapsFrom {start : Nat} (hstart : start.isValidChar ∨ start = maxCode + 1)
    (hafter : ∀ r ∈ ranges, start ≤ succCode r.2) (hascend : Ascend ranges)
    (hbounded : ∀ r ∈ ranges, NearlyBounded r) :
    (CodeSet.mk (gapsFrom start ranges)).Tidy ∧ ∀ r ∈ gapsFrom start ranges, start ≤ r.1 := by
  induction ranges generalizing start with
  | nil =>
    rw [gapsFrom]
    by_cases hle : start ≤ maxCode
    · have hvalid : start.isValidChar := hstart.resolve_right (by omega)
      have hlast : maxCode.isValidChar := .inr (by decide)
      rw [if_pos hle]
      exact ⟨tidy_range hle ⟨hvalid, hlast⟩, by simp⟩
    · rw [if_neg hle]
      exact ⟨tidy_empty, by simp⟩
  | cons r rest ih =>
    have hnear : NearlyBounded r := hbounded r List.mem_cons_self
    have hproper : r.1 ≤ r.2 := hascend.proper r List.mem_cons_self
    have hstep : start ≤ succCode r.2 := hafter r List.mem_cons_self
    have hlater : ∀ r' ∈ rest, succCode r.2 ≤ succCode r'.2 := by
      intro r' hr'
      have happart : r.2 < r'.1 := (List.pairwise_cons.1 hascend.apart).1 r' hr'
      have hproper' : r'.1 ≤ r'.2 := hascend.proper r' (List.mem_cons_of_mem r hr')
      exact succCode_le_succCode (by omega) (hbounded r' (List.mem_cons_of_mem r hr'))
    obtain ⟨hgaps, hbelow⟩ := ih hnear.succCode_upper hlater hascend.tail
      fun r' hr' => hbounded r' (List.mem_cons_of_mem r hr')
    rw [gapsFrom]
    by_cases hgap : start < r.1
    · have hvalid : start.isValidChar := by
        refine hstart.resolve_right fun heq => ?_
        obtain ⟨hlo, -⟩ := hnear
        simp only [Nat.isValidChar, maxCode] at hlo heq
        omega
      have hpred : predCode r.1 < succCode r.2 := by
        simp only [predCode, succCode]
        split_ifs <;> omega
      have hfirst : start ≤ predCode r.1 := le_predCode hvalid hgap
      rw [if_pos hgap]
      refine ⟨⟨⟨List.forall_mem_cons.2 ⟨hfirst, hgaps.ascend.proper⟩,
        List.pairwise_cons.2 ⟨fun r' hr' => ?_, hgaps.ascend.apart⟩⟩,
        List.forall_mem_cons.2 ⟨⟨hvalid, hnear.predCode_lower (by omega)⟩, hgaps.bounded⟩⟩,
        List.forall_mem_cons.2 ⟨Nat.le_refl start, fun r' hr' => ?_⟩⟩
      · exact Nat.lt_of_lt_of_le hpred (hbelow r' hr')
      · exact Nat.le_trans hstep (hbelow r' hr')
    · rw [if_neg hgap]
      exact ⟨hgaps, fun r' hr' => Nat.le_trans hstep (hbelow r' hr')⟩

theorem tidy_compl_of_nearly (hascend : Ascend s.ranges)
    (hbounded : ∀ r ∈ s.ranges, NearlyBounded r) : s.compl.Tidy :=
  (tidy_gapsFrom (.inl (.inl (by decide))) (fun _ _ => Nat.zero_le _) hascend hbounded).1

theorem tidy_compl (hs : s.Tidy) : s.compl.Tidy :=
  tidy_compl_of_nearly hs.ascend fun r hr => (hs.bounded r hr).nearly

theorem tidy_diff (hs : s.Tidy) (ht : t.Tidy) : (s.diff t).Tidy := tidy_inter hs (tidy_compl ht)

theorem tidy_symmDiff (hs : s.Tidy) (ht : t.Tidy) : (s.symmDiff t).Tidy :=
  tidy_diff (tidy_union hs ht) (tidy_inter hs ht)

end CodeSet

end TestSelection.Unicode
