import TestSelection.Proofs.Regex.Reading

/-!
# What patterns denote

A pattern *denotes* an expression under some flags if the expression that is made of it there is
sound and matches the same (`Pattern.Denotes`). What a pattern denotes is put together from what its
parts denote.
-/

namespace TestSelection.Regex

open Unicode (CodeSet)

/-- An expression is made of the pattern under the flags that matches what the given one matches,
and the flags hold after it. -/
def Pattern.Denotes (flags : Flags) (pat : Pattern) (x : Expr) : Prop :=
  ∃ y, Expr.ofPatternFrom flags pat = .ok (y, flags) ∧ y.Sound ∧ y.Agrees x

variable {flags : Flags} {pat : Pattern} {pats : List Pattern} {x y : Expr} {xs : List Expr}

namespace Pattern.Denotes

theorem congr (h : pat.Denotes flags x) (hagrees : x.Agrees y) : pat.Denotes flags y := by
  obtain ⟨z, hz, hsound, hzx⟩ := h
  exact ⟨z, hz, hsound, hzx.trans hagrees⟩

theorem empty : Pattern.empty.Denotes flags .empty := ⟨.empty, rfl, .empty, .refl _⟩

theorem literal {c : Char} (hcase : flags.ignoreCase = false) (hunicode : flags.unicode = true) :
    (Pattern.literal ⟨c, false⟩).Denotes flags (.text [c]) := by
  have hliteral : flags.literal ⟨c, false⟩ = .ok (.text [c]) := by
    simp [Flags.literal, Flags.char, Flags.fold, hcase, hunicode, CodeSet.single]
  refine ⟨.text [c], ?_, .text (List.cons_ne_nil _ _), .refl _⟩
  rw [Expr.ofPatternFrom, hliteral]
  rfl

theorem assertion {a : Assertion} : (Pattern.assertion a).Denotes flags (.look (flags.look a)) :=
  ⟨_, rfl, .look, .refl _⟩

theorem repetition {least : Nat} {greatest : Option Nat} {greedy greedy' : Bool}
    (hbounds : Bounds least greatest) (h : pat.Denotes flags x) :
    (Pattern.repetition least greatest greedy pat).Denotes flags
      (.repetition least greatest greedy' x) := by
  obtain ⟨y, hy, hsound, hagrees⟩ := h
  refine ⟨.ofRepetition least greatest (greedy != flags.swapGreed) y, ?_,
    Expr.sound_ofRepetition hbounds hsound, fun input i j hi => ?_⟩
  · rw [Expr.ofPatternFrom, hy]
    rfl
  · rw [Expr.matches_ofRepetition hsound hi]
    exact hagrees.repetition input i j hi

theorem group {items : List FlagItem} (h : pat.Denotes (flags.update items) x) :
    (Pattern.group (.flags items) pat).Denotes flags x := by
  obtain ⟨y, hy, hsound, hagrees⟩ := h
  refine ⟨y, ?_, hsound, hagrees⟩
  rw [Expr.ofPatternFrom, hy]
  rfl

theorem capture {index index' : Nat} {name : Option String} (hname : ∀ n ∈ name, IsGroupName n)
    (h : pat.Denotes flags x) :
    (Pattern.group (.capture index name) pat).Denotes flags (.capture index' name x) := by
  obtain ⟨y, hy, hsound, hagrees⟩ := h
  refine ⟨.capture index name y, ?_, .capture hname hsound, hagrees.capture⟩
  rw [Expr.ofPatternFrom, hy]
  rfl

/-! ### Lists of patterns -/

theorem list (h : List.Forall₂ (Pattern.Denotes flags) pats xs) :
    ∃ ys, Expr.ofPatternList flags pats = .ok (ys, flags) ∧ (∀ y ∈ ys, y.Sound) ∧
      List.Forall₂ Expr.Agrees ys xs := by
  induction h with
  | nil => exact ⟨[], rfl, by simp, .nil⟩
  | cons hx _ ih =>
    obtain ⟨y, hy, hsound, hagrees⟩ := hx
    obtain ⟨ys, hys, hsounds, hagreess⟩ := ih
    refine ⟨y :: ys, ?_, List.forall_mem_cons.2 ⟨hsound, hsounds⟩, .cons hagrees hagreess⟩
    rw [Expr.ofPatternList, hy]
    show (Expr.ofPatternList flags _ >>= fun x => _) = _
    rw [hys]
    rfl

theorem concat (h : List.Forall₂ (Pattern.Denotes flags) pats xs) :
    (Pattern.concat pats).Denotes flags (.concat xs) := by
  obtain ⟨ys, hys, hsound, hagrees⟩ := list h
  refine ⟨.ofConcat ys, ?_, Expr.sound_ofConcat hsound, fun input i j hi => ?_⟩
  · rw [Expr.ofPatternFrom, hys]
    rfl
  · rw [Expr.matches_ofConcat hi]
    exact Expr.Agrees.concat hagrees input i j hi

theorem alternation (h : List.Forall₂ (Pattern.Denotes flags) pats xs) :
    (Pattern.alternation pats).Denotes flags (.alternation xs) := by
  obtain ⟨ys, hys, hsound, hagrees⟩ := list h
  have halternates := Expr.alternates_ofAlternation hsound
  refine ⟨.ofAlternation ys, ?_, halternates.sound, fun input i j hi => ?_⟩
  · rw [Expr.ofPatternFrom, hys]
    rfl
  · rw [halternates.matches_iff input i j hi, ← Expr.matchesAny_iff]
    exact Expr.Agrees.alternation hagrees input i j hi

theorem ofParts_eq_concat {parts : List Pattern} (h : 2 ≤ parts.length) :
    Pattern.ofParts parts = .concat parts.reverse :=
  match parts, h with
  | _ :: _ :: _, _ => rfl

/-- Parts side by side denote a concatenation. -/
theorem ofParts (h : List.Forall₂ (Pattern.Denotes flags) pats xs) :
    (Pattern.ofParts pats.reverse).Denotes flags (.concat xs) := by
  cases h with
  | nil => exact empty.congr fun input i j hi => Iff.rfl
  | cons hx hrest =>
    cases hrest with
    | nil => exact hx.congr fun input i j hi => (Expr.matchesAll_singleton hi).symm
    | cons hy hrest =>
      rw [ofParts_eq_concat (by simp), List.reverse_reverse]
      exact concat (.cons hx (.cons hy hrest))

/-- The level in hand denotes the choice between its branches. -/
theorem level {p : Progress}
    (h : List.Forall₂ (Pattern.Denotes flags) (p.branches.reverse ++ [.ofParts p.parts]) xs) :
    p.level.Denotes flags (.alternation xs) := by
  unfold Progress.level
  split
  · next hbranches =>
    rw [hbranches] at h
    cases h with
    | cons hx hrest =>
      cases hrest
      refine hx.congr fun input i j _ => ?_
      simp only [Expr.Matches, Expr.MatchesAny, or_false]
  · exact alternation h

end Pattern.Denotes

/-! ## Classes -/

section

variable {unicode : Bool} {s : CodeSet} {r : Nat × Nat} {rs : List (Nat × Nat)} {c : Nat}
  {literal : Nat → Literal}

/-- The sets that the parts of a printed range stand for. -/
def rangeSets (r : Nat × Nat) : List CodeSet :=
  if r.1 = r.2 then [.single r.1]
  else if r.1 + 1 = r.2 then [.single r.1, .single r.2]
  else [.range r.1 r.2]

theorem tidy_rangeSets (hproper : r.1 ≤ r.2) (hbounded : CodeSet.Bounded r) :
    ∀ t ∈ rangeSets r, t.Tidy := by
  unfold rangeSets
  split_ifs
  · simpa using CodeSet.tidy_single hbounded.1
  · simpa using ⟨CodeSet.tidy_single hbounded.1, CodeSet.tidy_single hbounded.2⟩
  · simpa using CodeSet.tidy_range hproper hbounded

theorem exists_mem_rangeSets_iff (hproper : r.1 ≤ r.2) (hbounded : CodeSet.Bounded r) :
    (∃ t ∈ rangeSets r, t.mem c = true) ↔ CodeSet.Lies c r := by
  have hrange {lo hi : Nat} (hle : lo ≤ hi) (h : CodeSet.Bounded (lo, hi)) :
      (CodeSet.range lo hi).mem c = true ↔ lo ≤ c ∧ c ≤ hi := by
    rw [CodeSet.mem_iff (CodeSet.tidy_range hle h)]
    simp [CodeSet.range, CodeSet.Lies]
  have hsingle {n : Nat} (h : n.isValidChar) : (CodeSet.single n).mem c = true ↔ c = n := by
    rw [show CodeSet.single n = .range n n from rfl, hrange (Nat.le_refl n) ⟨h, h⟩]
    omega
  unfold rangeSets CodeSet.Lies
  split_ifs with hone htwo
  · simp only [List.mem_singleton, exists_eq_left, hsingle hbounded.1]
    omega
  · simp only [List.exists_mem_cons_iff, hsingle hbounded.1, hsingle hbounded.2]
    simp
    omega
  · simp only [List.mem_singleton, exists_eq_left, hrange hproper hbounded]

/-- Under the flags, the literals for the ends of a range stand for them. -/
structure NamesEnds (flags : Flags) (literal : Nat → Literal) (r : Nat × Nat) : Prop where
  lower : flags.member (literal r.1) = .ok r.1
  upper : flags.member (literal r.2) = .ok r.2

theorem namesEnds_chars (hunicode : flags.unicode = true) (hr : CodeSet.Bounded r) :
    NamesEnds flags (fun n => ⟨Char.ofNat n, false⟩) r := by
  have hmember {n : Nat} (hn : n.isValidChar) :
      flags.member ⟨Char.ofNat n, false⟩ = .ok n := by
    simp only [Flags.member, hunicode, if_true, Unicode.toNat_ofNat hn]
    rfl
  exact ⟨hmember hr.1, hmember hr.2⟩

theorem namesEnds_bytes (hunicode : flags.unicode = false) (hlower : r.1 < 0x80)
    (hupper : r.2 < 0x80) : NamesEnds flags byteLiteral r := by
  have hmember {n : Nat} (hn : n < 0x80) : flags.member (byteLiteral n) = .ok n := by
    have hcode : (Char.ofNat n).toNat = n := Unicode.toNat_ofNat (.inl (by omega))
    have hsmall : ¬ 0x7F < n := by omega
    have hchar : flags.char (byteLiteral n) = .ok (Char.ofNat n) := by
      simp [Flags.char, hunicode, byteLiteral, hcode, hsmall]
    rw [Flags.member, hunicode, if_neg Bool.false_ne_true, hchar]
    show (if (Char.ofNat n).toNat < 0x80 then Except.ok (Char.ofNat n).toNat else _) = _
    rw [hcode, if_pos hn]
  exact ⟨hmember hlower, hmember hupper⟩

theorem itemList_append {items items' : List ClassItem} {sets sets' : List CodeSet}
    (h : flags.itemList items = .ok sets) (h' : flags.itemList items' = .ok sets') :
    flags.itemList (items ++ items') = .ok (sets ++ sets') := by
  induction items generalizing sets with
  | nil =>
    cases h
    exact h'
  | cons i is ih =>
    obtain ⟨t, ht, hrest⟩ := bind_eq_ok_iff.1 h
    obtain ⟨ts, hts, heq⟩ := bind_eq_ok_iff.1 hrest
    cases heq
    rw [List.cons_append, Flags.itemList, ht, ih hts]
    rfl

theorem itemList_rangeItems (h : NamesEnds flags literal r) :
    flags.itemList (rangeItems literal r) = .ok (rangeSets r) := by
  unfold rangeItems rangeSets
  split_ifs
  all_goals
    simp only [Flags.itemList, Flags.item, h.lower, h.upper]
    rfl

theorem itemList_ranges (h : ∀ r ∈ rs, NamesEnds flags literal r) :
    flags.itemList (rs.flatMap (rangeItems literal)) = .ok (rs.flatMap rangeSets) := by
  induction rs with
  | nil => rfl
  | cons r rs ih =>
    rw [List.forall_mem_cons] at h
    exact itemList_append (itemList_rangeItems h.1) (ih h.2)

theorem ofReversed_eq_union {items : List ClassItem} (h : 2 ≤ items.length) :
    ClassItem.ofReversed items = .union items.reverse :=
  match items, h with
  | _ :: _ :: _, _ => rfl

/-- Parts of a class stand for the union of what each stands for. -/
theorem content_ofReversed {items : List ClassItem} {sets : List CodeSet}
    (h : flags.itemList items = .ok sets) (hne : items ≠ []) (htidy : ∀ t ∈ sets, t.Tidy) :
    ∃ t, flags.content (.item (.ofReversed items.reverse)) = .ok t ∧ t.Tidy ∧
      ∀ c, c.isValidChar → (t.mem c = true ↔ ∃ t' ∈ sets, t'.mem c = true) := by
  match items, hne with
  | [i], _ =>
    obtain ⟨t, ht, hrest⟩ := bind_eq_ok_iff.1 h
    cases hrest
    exact ⟨t, ht, htidy t List.mem_cons_self, by simp⟩
  | i :: i' :: is, _ =>
    have hunion : ClassItem.ofReversed (i :: i' :: is).reverse = .union (i :: i' :: is) := by
      rw [ofReversed_eq_union (by simp), List.reverse_reverse]
    refine ⟨.unions sets, ?_, CodeSet.tidy_unions sets, fun c hc => CodeSet.mem_unions hc htidy⟩
    rw [hunion, Flags.content, Flags.item, h]
    rfl

/-- A set under flags that do not fold is taken as it is, but has to be ASCII without Unicode. -/
theorem foldAndNegate_eq (hcase : flags.ignoreCase = false)
    (hascii : flags.unicode = false → s.isAscii = true) : flags.foldAndNegate false s = .ok s := by
  simp only [Flags.foldAndNegate, Flags.fold, hcase, Bool.false_eq_true, if_false]
  cases hunicode : flags.unicode with
  | true => rfl
  | false => simp [hascii hunicode]

/-- A class of ranges denotes their set. -/
theorem Pattern.Denotes.class (hs : s.Tidy) (hne : s.ranges ≠ [])
    (hascii : flags.unicode = false → s.isAscii = true) (hcase : flags.ignoreCase = false)
    (h : ∀ r ∈ s.ranges, NamesEnds flags literal r) :
    (rangesClass literal s.ranges).Denotes flags (.set unicode s) := by
  have hitems : s.ranges.flatMap (rangeItems literal) ≠ [] := by
    obtain ⟨r, rest, hr⟩ := List.exists_cons_of_ne_nil hne
    rw [hr, List.flatMap_cons, rangeItems]
    split_ifs <;> exact List.cons_ne_nil _ _
  have htidy : ∀ t ∈ s.ranges.flatMap rangeSets, t.Tidy := by
    intro t ht
    obtain ⟨r, hr, ht⟩ := List.mem_flatMap.1 ht
    exact tidy_rangeSets (hs.ascend.proper r hr) (hs.bounded r hr) t ht
  obtain ⟨t, hcontent, ht, hmem⟩ := content_ofReversed (itemList_ranges h) hitems htidy
  have hsame (c : Nat) (hc : c.isValidChar) : t.mem c = true ↔ s.mem c = true := by
    rw [hmem _ hc, CodeSet.mem_iff hs]
    simp only [List.mem_flatMap]
    constructor
    · rintro ⟨t', ⟨r, hr, ht'⟩, hc⟩
      exact ⟨r, hr, (exists_mem_rangeSets_iff (hs.ascend.proper r hr) (hs.bounded r hr)).1
        ⟨t', ht', hc⟩⟩
    · rintro ⟨r, hr, hc⟩
      obtain ⟨t', ht', hc⟩ :=
        (exists_mem_rangeSets_iff (hs.ascend.proper r hr) (hs.bounded r hr)).2 hc
      exact ⟨t', ⟨r, hr, ht'⟩, hc⟩
  have htascii (hunicode : flags.unicode = false) : t.isAscii = true := by
    refine (CodeSet.isAscii_iff_forall_mem ht).2 fun c hc hmem => ?_
    exact (CodeSet.isAscii_iff_forall_mem hs).1 (hascii hunicode) c hc ((hsame c hc).1 hmem)
  refine ⟨.ofSet flags.unicode t, ?_, Expr.sound_ofSet ht htascii, fun input i j _ => ?_⟩
  · rw [rangesClass, Expr.ofPatternFrom, hcontent]
    show (flags.foldAndNegate false t >>= fun s => _) = _
    rw [foldAndNegate_eq hcase htascii]
    rfl
  · rw [Expr.matches_ofSet ht]
    simp only [Expr.Matches, hsame _ (Unicode.isValidChar_toNat _)]

/-- The class that is printed for the empty set denotes it. -/
theorem Pattern.Denotes.none (hs : s.ranges = []) :
    noneClass.Denotes .initial (.set unicode s) := by
  refine ⟨.never, rfl, .set CodeSet.tidy_empty fun _ => rfl, fun input i j _ => ?_⟩
  simp [Expr.Matches, CodeSet.mem, hs, Expr.never, CodeSet.empty, CodeSet.memRanges]

end

end TestSelection.Regex
