import Mathlib.Tactic.Abel
import TestSelection.Proofs.Regex.Names
import TestSelection.Proofs.Unicode.Answers
import TestSelection.Regex

/-!
# Parsed expressions are well-formed

**Theorem (`parse_wellFormed`).** Every expression that a text stands for is well-formed.

The reader is what sees to the bounds of repetitions, the ends of ranges in classes and the names
of groups: whatever it reads is sound (`Pattern.Sound`), and the names are distinct. It reads step
by step, and each step keeps everything sound that was read so far (`sound_readStep`). The sets of a
sound pattern are tidy, and so the expression that is made of it is sound (`sound_ofPatternFrom`).
-/

namespace TestSelection.Regex

open Unicode (CodeSet)

/-! ## Sound patterns -/

mutual

/-- Ranges in the part of a class are in order. -/
def ClassItem.Sound : ClassItem → Prop
  | .range first last => first.char ≤ last.char
  | .bracketed _ s => ClassSet.Sound s
  | .union items => ClassItem.AllSound items
  | _ => True

/-- Ranges in all parts of a class are in order. -/
def ClassItem.AllSound : List ClassItem → Prop
  | [] => True
  | i :: is => ClassItem.Sound i ∧ ClassItem.AllSound is

/-- Ranges in the content of a class are in order. -/
def ClassSet.Sound : ClassSet → Prop
  | .item i => ClassItem.Sound i
  | .op _ left right => ClassSet.Sound left ∧ ClassSet.Sound right

end

/-- If the group has a name, the reader takes it as one. -/
def GroupKind.Sound : GroupKind → Prop
  | .capture _ name => ∀ n ∈ name, IsGroupName n
  | .flags _ => True

mutual

/-- Ranges and bounds in the pattern are in order, and the names of groups are names. -/
def Pattern.Sound : Pattern → Prop
  | .bracketed _ s => s.Sound
  | .repetition least greatest _ sub => Bounds least greatest ∧ Pattern.Sound sub
  | .group kind sub => kind.Sound ∧ Pattern.Sound sub
  | .alternation branches => Pattern.AllSound branches
  | .concat parts => Pattern.AllSound parts
  | _ => True

/-- All of the patterns are sound. -/
def Pattern.AllSound : List Pattern → Prop
  | [] => True
  | p :: ps => Pattern.Sound p ∧ Pattern.AllSound ps

end

theorem ClassItem.allSound_iff {items : List ClassItem} :
    ClassItem.AllSound items ↔ ∀ i ∈ items, i.Sound := by
  induction items with
  | nil => simp [ClassItem.AllSound]
  | cons i is ih => rw [ClassItem.AllSound, ih, List.forall_mem_cons]

theorem Pattern.allSound_iff {patterns : List Pattern} :
    Pattern.AllSound patterns ↔ ∀ p ∈ patterns, p.Sound := by
  induction patterns with
  | nil => simp [Pattern.AllSound]
  | cons p ps ih => rw [Pattern.AllSound, ih, List.forall_mem_cons]

/-! ## Reading classes -/

theorem sound_toItem {primitive : Primitive} {i : ClassItem} (h : primitive.toItem = .ok i) :
    i.Sound := by
  cases primitive <;> cases h <;> trivial

theorem sound_readRange {ignoreSpace : Bool} {text rest : List Char} {i : ClassItem}
    (h : readRange ignoreSpace text = .ok (i, rest)) : i.Sound := by
  obtain ⟨⟨first, rest₁⟩, -, hfirst⟩ := bind_eq_ok_iff.1 h
  dsimp only at hfirst
  split at hfirst
  · cases hfirst
  · split_ifs at hfirst
    · obtain ⟨i', hi, heq⟩ := bind_eq_ok_iff.1 hfirst
      cases heq
      exact sound_toItem hi
    · obtain ⟨⟨last, rest₂⟩, -, hlast⟩ := bind_eq_ok_iff.1 hfirst
      obtain ⟨lower, -, hlower⟩ := bind_eq_ok_iff.1 hlast
      obtain ⟨upper, -, hupper⟩ := bind_eq_ok_iff.1 hlower
      split_ifs at hupper with hle
      cases hupper
      exact hle

theorem sound_asciiClass? {text rest : List Char} {i : ClassItem}
    (h : asciiClass? text = some (i, rest)) : i.Sound := by
  unfold asciiClass? at h
  split at h
  · dsimp only at h
    split at h
    · obtain ⟨kind, -, heq⟩ := Option.map_eq_some_iff.1 h
      cases heq
      trivial
    · cases h
  · cases h

theorem sound_ofReversed {items : List ClassItem} (h : ∀ i ∈ items, i.Sound) :
    (ClassItem.ofReversed items).Sound := by
  match items with
  | [] => trivial
  | [i] => exact h i List.mem_cons_self
  | i :: i' :: is =>
    refine ClassItem.allSound_iff.2 fun j hj => h j ?_
    exact List.mem_reverse.1 hj

/-- What was read of a class that is not finished is sound. -/
def ClassFrame.Sound : ClassFrame → Prop
  | .opened around _ => ∀ i ∈ around, i.Sound
  | .operator _ left => left.Sound

theorem sound_finishOperator {right s : ClassSet} {frames frames' : List ClassFrame}
    (hright : right.Sound) (hframes : ∀ f ∈ frames, f.Sound)
    (h : finishOperator right frames = (s, frames')) : s.Sound ∧ ∀ f ∈ frames', f.Sound := by
  unfold finishOperator at h
  split at h
  · cases h
    rw [List.forall_mem_cons] at hframes
    exact ⟨⟨hframes.1, hright⟩, hframes.2⟩
  · cases h
    exact ⟨hright, hframes⟩

theorem sound_readOpening {ignoreSpace negated : Bool} {text rest : List Char}
    {items : List ClassItem} (h : readOpening ignoreSpace text = .ok (negated, items, rest)) :
    ∀ i ∈ items, i.Sound := by
  have hhyphens (steps : Nat) (text : List Char) :
      ∀ i ∈ (takeHyphens ignoreSpace steps text).1, i.Sound := by
    induction steps generalizing text with
    | zero => simp [takeHyphens]
    | succ steps ih =>
      cases text with
      | nil => simp [takeHyphens]
      | cons c cs =>
        by_cases hc : c = '-'
        · subst hc
          exact List.forall_mem_cons.2 ⟨trivial, ih _⟩
        · simp [takeHyphens, hc]
  have hbracket : ∀ i ∈ [ClassItem.literal ⟨']', false⟩], i.Sound :=
    List.forall_mem_singleton.2 trivial
  simp only [readOpening] at h
  split at h
  · cases h
  · split_ifs at h
    cases h
    exact hbracket
  · cases h
    exact hhyphens _ _

theorem sound_readClassFrom {ignoreSpace : Bool} {steps : Nat} {items : List ClassItem}
    {frames : List ClassFrame} {text rest : List Char} {pat : Pattern}
    (hitems : ∀ i ∈ items, i.Sound) (hframes : ∀ f ∈ frames, f.Sound)
    (h : readClassFrom ignoreSpace steps items frames text = .ok (pat, rest)) :
    pat.Sound ∧ pat.names = 0 := by
  induction steps generalizing items frames text with
  | zero => cases h
  | succ steps ih =>
    have hcontent : (ClassSet.item (.ofReversed items)).Sound := sound_ofReversed hitems
    rw [readClassFrom] at h
    split at h
    · cases h
    · split at h
      · next hclass =>
        exact ih (List.forall_mem_cons.2 ⟨sound_asciiClass? hclass, hitems⟩) hframes h
      · obtain ⟨⟨negated, first, rest'⟩, hopening, hrest⟩ := bind_eq_ok_iff.1 h
        have hopened : (ClassFrame.opened items negated).Sound := hitems
        exact ih (sound_readOpening hopening) (List.forall_mem_cons.2 ⟨hopened, hframes⟩) hrest
    · split at h
      · next set around negated frames' hfinish =>
        obtain ⟨hset, hframes'⟩ := sound_finishOperator hcontent hframes hfinish
        rw [List.forall_mem_cons] at hframes'
        split_ifs at h
        · cases h
          exact ⟨hset, rfl⟩
        · have hclass : (ClassItem.bracketed negated set).Sound := hset
          exact ih (List.forall_mem_cons.2 ⟨hclass, hframes'.1⟩) hframes'.2 h
      · cases h
    · split at h
      · next kind rest' hop =>
        obtain ⟨left, frames', hfinish⟩ : ∃ left frames',
          finishOperator (.item (.ofReversed items)) frames = (left, frames') := ⟨_, _, rfl⟩
        obtain ⟨hset, hframes'⟩ := sound_finishOperator hcontent hframes hfinish
        have hoperator : (ClassFrame.operator kind left).Sound := hset
        rw [hfinish] at h
        exact ih (by simp) (List.forall_mem_cons.2 ⟨hoperator, hframes'⟩) h
      · obtain ⟨⟨i, rest'⟩, hrange, hrest⟩ := bind_eq_ok_iff.1 h
        exact ih (List.forall_mem_cons.2 ⟨sound_readRange hrange, hitems⟩) hframes hrest

theorem sound_readClass {ignoreSpace : Bool} {text rest : List Char} {pat : Pattern}
    (h : readClass ignoreSpace text = .ok (pat, rest)) : pat.Sound ∧ pat.names = 0 := by
  obtain ⟨⟨negated, first, rest'⟩, hopening, hrest⟩ := bind_eq_ok_iff.1 h
  refine sound_readClassFrom (sound_readOpening hopening) ?_ hrest
  simp [ClassFrame.Sound]

/-! ## Reading patterns -/

/-- What was read around an open group is sound. -/
structure GroupFrame.Sound (f : GroupFrame) : Prop where
  parts : ∀ x ∈ f.parts, x.Sound
  branches : ∀ x ∈ f.branches, x.Sound
  kind : f.kind.Sound

/-- The names of an open group and of what was read around it. -/
def GroupFrame.found (f : GroupFrame) : Multiset String :=
  f.kind.names + (f.parts.map Pattern.names).sum + (f.branches.map Pattern.names).sum

/-- The names in everything that was read so far. -/
def Progress.found (p : Progress) : Multiset String :=
  (p.parts.map Pattern.names).sum + (p.branches.map Pattern.names).sum +
    (p.frames.map GroupFrame.found).sum

/-- Everything that was read so far is sound. The names in it are those that the reader remembers,
and they are distinct. -/
structure Progress.Sound (p : Progress) : Prop where
  parts : ∀ x ∈ p.parts, x.Sound
  branches : ∀ x ∈ p.branches, x.Sound
  frames : ∀ f ∈ p.frames, f.Sound
  found : p.found = p.names
  nodup : p.names.Nodup

section

variable {p q : Progress} {text rest : List Char}

theorem sound_start : Progress.start.Sound where
  parts := by simp [Progress.start]
  branches := by simp [Progress.start]
  frames := by simp [Progress.start]
  found := rfl
  nodup := List.nodup_nil

theorem sound_ofParts {parts : List Pattern} (h : ∀ x ∈ parts, x.Sound) :
    (Pattern.ofParts parts).Sound := by
  match parts with
  | [] => trivial
  | [x] => exact h x List.mem_cons_self
  | x :: y :: rest => exact Pattern.allSound_iff.2 fun z hz => h z (List.mem_reverse.1 hz)

theorem Progress.Sound.level (h : p.Sound) : p.level.Sound := by
  have hlast := sound_ofParts h.parts
  unfold Progress.level
  split
  · exact hlast
  · refine Pattern.allSound_iff.2 (List.forall_mem_append.2 ⟨fun x hx => ?_, ?_⟩)
    · exact h.branches x (List.mem_reverse.1 hx)
    · exact List.forall_mem_singleton.2 hlast

theorem Progress.found_push (p : Progress) (part : Pattern) :
    (p.push part).found = part.names + p.found := by
  simp only [Progress.found, Progress.push, List.map_cons, List.sum_cons, add_assoc]

theorem Progress.Sound.push (h : p.Sound) {part : Pattern} (hpart : part.Sound)
    (hnames : part.names = 0) : (p.push part).Sound where
  parts := List.forall_mem_cons.2 ⟨hpart, h.parts⟩
  branches := h.branches
  frames := h.frames
  found := by rw [p.found_push, hnames, zero_add]; exact h.found
  nodup := h.nodup

/-- A group is entered after its name has been noted. -/
theorem Progress.Sound.enter (h : p.Sound) {kind : GroupKind} (hkind : kind.Sound)
    {captures : Nat} {names : List String} (hnames : kind.names + p.names = names)
    (hnodup : names.Nodup) : ({ p with captures, names }.enter kind).Sound where
  parts := by simp [Progress.enter]
  branches := by simp [Progress.enter]
  frames := List.forall_mem_cons.2 ⟨⟨h.parts, h.branches, hkind⟩, h.frames⟩
  found := by
    refine Eq.trans ?_ hnames
    rw [← h.found]
    simp only [Progress.found, Progress.enter, GroupFrame.found, List.map_nil, List.sum_nil,
      List.map_cons, List.sum_cons, zero_add, add_assoc]
  nodup := hnodup

theorem Progress.Sound.leave (h : p.Sound) (hleave : p.leave = .ok q) : q.Sound := by
  unfold Progress.leave at hleave
  split at hleave
  · cases hleave
  · next frame frames hframes =>
    have hall := h.frames
    rw [hframes, List.forall_mem_cons] at hall
    have hgroup : (Pattern.group frame.kind p.level).Sound := ⟨hall.1.kind, h.level⟩
    have hnames : (Pattern.group frame.kind p.level).names = frame.kind.names + p.level.names := by
      rw [Pattern.names]
    cases hleave
    refine ⟨List.forall_mem_cons.2 ⟨hgroup, hall.1.parts⟩, hall.1.branches, hall.2, ?_, h.nodup⟩
    refine Eq.trans ?_ h.found
    simp only [Progress.found, hframes, GroupFrame.found, hnames, p.names_level, List.map_cons,
      List.sum_cons]
    abel

/-- Repeating the last part keeps what was read sound. -/
theorem Progress.Sound.repeated (h : p.Sound) {part : Pattern} {least : Nat}
    {greatest : Option Nat} {greedy : Bool} (htake : p.takeOperand = .ok (part, q))
    (hbounds : Bounds least greatest) :
    (q.push (.repetition least greatest greedy part)).Sound := by
  have hparts := h.parts
  have hfound := h.found
  unfold Progress.takeOperand at htake
  split at htake
  · cases htake
  · cases htake
  · cases htake
  · next heq =>
    rw [heq, List.forall_mem_cons] at hparts
    cases htake
    refine ⟨List.forall_mem_cons.2 ⟨⟨hbounds, hparts.1⟩, hparts.2⟩, h.branches, h.frames, ?_,
      h.nodup⟩
    refine Eq.trans ?_ hfound
    simp only [Progress.found, Progress.push, heq, List.map_cons, Pattern.names]

/-- What was read as a name is read as one again, whatever follows it. -/
theorem readNameFrom_append {first : Bool} {name : List Char}
    (h : readNameFrom first text = .ok (name, rest)) (rest' : List Char) :
    readNameFrom first (name ++ '>' :: rest') = .ok (name, rest') := by
  induction text generalizing first name with
  | nil => cases h
  | cons c cs ih =>
    by_cases hc : c = '>'
    · subst hc
      cases h
      rfl
    · rw [readNameFrom] at h
      · split_ifs at h with hchar
        obtain ⟨⟨name', rest''⟩, hname, heq⟩ := bind_eq_ok_iff.1 h
        cases heq
        rw [List.cons_append, readNameFrom, if_pos hchar, ih hname]
        · rfl
        · exact hc
      · exact hc

theorem isGroupName_of_readNameFrom {name : List Char}
    (h : readNameFrom true text = .ok (name, rest)) (hne : name ≠ []) :
    IsGroupName (String.ofList name) := by
  constructor
  · rwa [String.toList_ofList]
  · rw [String.toList_ofList]
    exact readNameFrom_append h

theorem sound_readOpenGroup (hp : p.Sound) (h : readOpenGroup p text = .ok (q, rest)) :
    q.Sound := by
  have hcaptured {text : List Char} (h : (readNameFrom true text >>= fun x =>
      if x.1.isEmpty then Except.error .groupNameEmpty
      else if p.names.contains (String.ofList x.1) then .error .groupNameDuplicate
      else
        let name := String.ofList x.1
        let p := { p with captures := p.captures + 1, names := name :: p.names }
        pure (p.enter (.capture p.captures (some name)), x.2)) = .ok (q, rest)) : q.Sound := by
    obtain ⟨⟨name, rest'⟩, hname, hrest⟩ := bind_eq_ok_iff.1 h
    dsimp only at hrest
    split_ifs at hrest with hempty hnew
    cases hrest
    have hgroup : IsGroupName (String.ofList name) :=
      isGroupName_of_readNameFrom hname (by simpa using hempty)
    refine hp.enter ?_ rfl (List.nodup_cons.2 ⟨by simpa using hnew, hp.nodup⟩)
    rintro n ⟨⟩
    exact hgroup
  unfold readOpenGroup at h
  dsimp only at h
  split at h
  · cases h
  · cases h
  · cases h
  · cases h
  · exact hcaptured h
  · exact hcaptured h
  · cases h
  · obtain ⟨⟨items, rest'⟩, -, hrest⟩ := bind_eq_ok_iff.1 h
    dsimp only at hrest
    split_ifs at hrest
    · cases hrest
      have hspace : Progress.Sound { p with
          ignoreSpace := (FlagItem.state? .ignoreSpace items).getD p.ignoreSpace } :=
        ⟨hp.parts, hp.branches, hp.frames, hp.found, hp.nodup⟩
      exact hspace.push trivial rfl
    · cases hrest
      have hflags : (GroupKind.flags items).Sound := trivial
      exact hp.enter hflags (zero_add _) hp.nodup
  · cases h
    exact hp.enter (by simp [GroupKind.Sound]) (zero_add _) hp.nodup

/-! ### Repetitions -/

theorem lt_of_readDecimal {ignoreSpace : Bool} {n : Nat}
    (h : readDecimal ignoreSpace text = (.ok n, rest)) : n < UInt32.size := by
  simp only [readDecimal, Prod.mk.injEq] at h
  obtain ⟨h, -⟩ := h
  split_ifs at h with hempty hlarge
  cases h
  exact Nat.not_le.1 hlarge

/-- A count is no larger than a pattern can say. -/
theorem lt_of_repetitionCount {ignoreSpace : Bool} {n : Nat}
    (h : repetitionCount (readDecimal ignoreSpace text).1 = .ok n) : n < UInt32.size := by
  have hread : readDecimal ignoreSpace text = (.ok n, (readDecimal ignoreSpace text).2) := by
    unfold repetitionCount at h
    split at h
    · cases h
    · exact Prod.ext h rfl
  exact lt_of_readDecimal hread

theorem lt_of_readCounts {ignoreSpace : Bool} {least : Nat} {greatest : Option Nat}
    (h : readCounts ignoreSpace text = .ok (least, greatest, rest)) :
    least < UInt32.size ∧ ∀ n ∈ greatest, n < UInt32.size := by
  unfold readCounts at h
  dsimp only at h
  split at h
  · cases h
  · split at h
    · cases h
    · obtain ⟨m, hm, heq⟩ := bind_eq_ok_iff.1 h
      cases heq
      exact ⟨lt_of_repetitionCount hm, by simp⟩
    · obtain ⟨m, hm, hrest⟩ := bind_eq_ok_iff.1 h
      obtain ⟨k, hk, heq⟩ := bind_eq_ok_iff.1 hrest
      cases heq
      refine ⟨lt_of_repetitionCount hm, ?_⟩
      rintro n ⟨⟩
      exact lt_of_repetitionCount hk
  · obtain ⟨m, hm, heq⟩ := bind_eq_ok_iff.1 h
    cases heq
    refine ⟨lt_of_repetitionCount hm, ?_⟩
    rintro n ⟨⟩
    exact lt_of_repetitionCount hm

theorem sound_readRepetition (hp : p.Sound) {least : Nat} {greatest : Option Nat}
    (hbounds : Bounds least greatest)
    (h : readRepetition p least greatest text = .ok (q, rest)) : q.Sound := by
  obtain ⟨⟨part, p'⟩, htake, hrest⟩ := bind_eq_ok_iff.1 h
  cases hrest
  exact hp.repeated htake hbounds

theorem sound_readCounted (hp : p.Sound) (h : readCounted p text = .ok (q, rest)) : q.Sound := by
  obtain ⟨⟨part, p'⟩, htake, hrest⟩ := bind_eq_ok_iff.1 h
  dsimp only at hrest
  split_ifs at hrest
  obtain ⟨⟨least, greatest, rest'⟩, hcounts, hcounted⟩ := bind_eq_ok_iff.1 hrest
  dsimp only at hcounted
  split at hcounted
  · split_ifs at hcounted with hordered
    cases hcounted
    obtain ⟨hleast, hgreatest⟩ := lt_of_readCounts hcounts
    refine hp.repeated htake ⟨fun n hn => ?_, hleast, hgreatest⟩
    rw [Option.mem_def] at hn
    simpa [hn] using hordered
  · cases hcounted

/-! ### Steps -/

theorem sound_toPattern (primitive : Primitive) : primitive.toPattern.Sound := by
  cases primitive <;> trivial

theorem names_toPattern (primitive : Primitive) : primitive.toPattern.names = 0 := by
  cases primitive <;> rfl

/-- The parts of a branch are put together at its end. -/
theorem sound_bar (hp : p.Sound) :
    Progress.Sound { p with branches := .ofParts p.parts :: p.branches, parts := [] } where
  parts := by simp
  branches := List.forall_mem_cons.2 ⟨sound_ofParts hp.parts, hp.branches⟩
  frames := hp.frames
  found := by
    refine Eq.trans ?_ hp.found
    simp only [Progress.found, List.map_nil, List.sum_nil, List.map_cons, List.sum_cons,
      Pattern.names_ofParts, zero_add]
  nodup := hp.nodup

/-- Each step of the reader keeps what was read sound. -/
theorem sound_readStep (hp : p.Sound) (h : readStep p text = .ok (q, rest)) : q.Sound := by
  unfold readStep at h
  split at h
  · cases h
    exact hp
  · exact sound_readOpenGroup hp h
  · obtain ⟨p', hleave, heq⟩ := bind_eq_ok_iff.1 h
    cases heq
    exact hp.leave hleave
  · cases h
    exact sound_bar hp
  · obtain ⟨⟨part, rest'⟩, hclass, heq⟩ := bind_eq_ok_iff.1 h
    obtain ⟨hpart, hnames⟩ := sound_readClass hclass
    cases heq
    exact hp.push hpart hnames
  · exact sound_readRepetition hp (.of_le_one (by simp) (by simp) (by simp)) h
  · exact sound_readRepetition hp (.of_le_one (by simp) (by simp) (by simp)) h
  · exact sound_readRepetition hp (.of_le_one (by simp) (by simp) (by simp)) h
  · exact sound_readCounted hp h
  · obtain ⟨⟨part, rest'⟩, -, heq⟩ := bind_eq_ok_iff.1 h
    cases heq
    exact hp.push (sound_toPattern part) (names_toPattern part)

theorem sound_readAll {steps : Nat} (hp : p.Sound) (h : readAll steps p text = .ok q) :
    q.Sound := by
  induction steps generalizing p text with
  | zero =>
    cases h
    exact hp
  | succ steps ih =>
    rw [readAll] at h
    split at h
    · cases h
      exact hp
    · obtain ⟨⟨p', rest⟩, hstep, hrest⟩ := bind_eq_ok_iff.1 h
      exact ih (sound_readStep hp hstep) hrest

/-- Every pattern that is read is sound, and its names are distinct. -/
theorem sound_read {pat : Pattern} (h : Pattern.read text = .ok pat) :
    pat.Sound ∧ pat.names.Nodup := by
  obtain ⟨p, hall, hlevel⟩ := bind_eq_ok_iff.1 h
  have hp : p.Sound := sound_readAll sound_start hall
  dsimp only at hlevel
  split_ifs at hlevel with hframes
  cases hlevel
  refine ⟨hp.level, ?_⟩
  have hnames : p.level.names = p.names := by
    rw [p.names_level, ← hp.found, Progress.found, List.isEmpty_iff.1 hframes, List.map_nil,
      List.sum_nil, add_zero]
  rw [hnames]
  exact hp.nodup

end

/-! ## Sets -/

section

variable {flags : Flags} {s t : CodeSet}

theorem PerlClass.tidy_set (unicode : Bool) (kind : PerlClass) : (kind.set unicode).Tidy := by
  have hascii (kind : AsciiClass) : kind.set.Tidy := CodeSet.tidy_ofRanges _
  have hspace : Unicode.Listed.whiteSpace.Tidy := by decide
  cases kind with
  | digit =>
    rw [PerlClass.set]
    split_ifs
    · exact Unicode.Property.tidy_decimal
    · exact hascii .digit
  | space =>
    rw [PerlClass.set]
    split_ifs
    · exact hspace
    · exact hascii .space
  | word =>
    rw [PerlClass.set]
    split_ifs
    · exact Unicode.Property.tidy_word
    · exact hascii .word

theorem Flags.tidy_fold (flags : Flags) (hs : s.Tidy) : (flags.fold s).Tidy := by
  unfold Flags.fold
  split_ifs
  · exact Unicode.CaseFolding.tidy_close hs
  · exact CodeSet.tidy_ofRanges _
  · exact hs

/-- The set can be taken as it is: it is tidy, and ASCII without Unicode. -/
structure Flags.Takes (flags : Flags) (s : CodeSet) : Prop where
  tidy : s.Tidy
  ascii : flags.unicode = false → s.isAscii = true

theorem Flags.Takes.sound (h : flags.Takes s) : (Expr.ofSet flags.unicode s).Sound :=
  Expr.sound_ofSet h.tidy h.ascii

theorem Flags.takes_of_foldAndNegate {negated : Bool} (hs : s.Tidy)
    (h : flags.foldAndNegate negated s = .ok t) : flags.Takes t := by
  have hfold := flags.tidy_fold hs
  cases hunicode : flags.unicode with
  | true =>
    simp only [Flags.foldAndNegate, hunicode, if_true, Except.ok.injEq] at h
    subst h
    refine ⟨?_, by simp [hunicode]⟩
    split_ifs
    · exact CodeSet.tidy_compl hfold
    · exact hfold
  | false =>
    simp only [Flags.foldAndNegate, hunicode, Bool.false_eq_true, if_false] at h
    split_ifs at h with hnegated hascii hascii
    · cases h
      have hbytes : (CodeSet.range 0 0xFF).Tidy := by decide
      exact ⟨CodeSet.tidy_inter (CodeSet.tidy_compl hfold) hbytes, fun _ => hascii⟩
    · cases h
      exact ⟨hfold, fun _ => hascii⟩

theorem Flags.takes_perl {kind : PerlClass} {negated : Bool}
    (h : flags.perl kind negated = .ok s) : flags.Takes s := by
  have htakes := Flags.takes_of_foldAndNegate (PerlClass.tidy_set _ kind) h
  exact ⟨htakes.tidy, htakes.ascii⟩

/-- Properties are there with Unicode only. -/
theorem Flags.tidy_property {name : PropertyName} {negated : Bool}
    (h : flags.property name negated = .ok s) : s.Tidy := by
  unfold Flags.property at h
  split_ifs at h
  dsimp only at h
  split at h
  · next hanswer =>
    refine (Flags.takes_of_foldAndNegate ?_ h).tidy
    cases name with
    | bare name => exact Unicode.Query.tidy_named hanswer
    | value property value => exact Unicode.Query.tidy_withValue hanswer
  · cases h
  · cases h

/-! ### Classes -/

theorem Flags.eq_of_char {l : Literal} {c : Char} (h : flags.char l = .ok c) : c = l.char := by
  unfold Flags.char at h
  split_ifs at h
  cases h
  rfl

theorem Flags.eq_of_member {l : Literal} {n : Nat} (h : flags.member l = .ok n) :
    n = l.char.toNat := by
  unfold Flags.member at h
  split_ifs at h
  · cases h
    rfl
  · obtain ⟨c, hc, hrest⟩ := bind_eq_ok_iff.1 h
    split_ifs at hrest
    cases hrest
    rw [Flags.eq_of_char hc]

mutual

theorem Flags.tidy_item (flags : Flags) : ∀ (i : ClassItem) {s : CodeSet}, i.Sound →
    flags.item i = .ok s → s.Tidy
  | .empty, s, _, h => by
    cases h
    exact CodeSet.tidy_empty
  | .literal l, s, _, h => by
    obtain ⟨n, hn, heq⟩ := bind_eq_ok_iff.1 h
    cases heq
    rw [Flags.eq_of_member hn]
    exact CodeSet.tidy_single (Unicode.isValidChar_toNat _)
  | .range first last, s, hsound, h => by
    obtain ⟨lo, hlo, hrest⟩ := bind_eq_ok_iff.1 h
    obtain ⟨hi, hhi, heq⟩ := bind_eq_ok_iff.1 hrest
    cases heq
    rw [Flags.eq_of_member hlo, Flags.eq_of_member hhi]
    exact CodeSet.tidy_range hsound ⟨Unicode.isValidChar_toNat _, Unicode.isValidChar_toNat _⟩
  | .ascii kind negated, s, _, h => (Flags.takes_of_foldAndNegate (CodeSet.tidy_ofRanges _) h).tidy
  | .property name negated, s, _, h => Flags.tidy_property h
  | .perl kind negated, s, _, h => (Flags.takes_perl h).tidy
  | .bracketed negated content, s, hsound, h => by
    obtain ⟨t, hcontent, hfold⟩ := bind_eq_ok_iff.1 h
    have ht := Flags.tidy_content flags content hsound hcontent
    exact (Flags.takes_of_foldAndNegate ht hfold).tidy
  | .union items, s, _, h => by
    obtain ⟨sets, -, heq⟩ := bind_eq_ok_iff.1 h
    cases heq
    exact CodeSet.tidy_unions sets

theorem Flags.tidy_content (flags : Flags) : ∀ (content : ClassSet) {s : CodeSet},
    content.Sound → flags.content content = .ok s → s.Tidy
  | .item i, s, hsound, h => Flags.tidy_item flags i hsound h
  | .op kind left right, s, hsound, h => by
    obtain ⟨l, hl, hrest⟩ := bind_eq_ok_iff.1 h
    obtain ⟨r, hr, heq⟩ := bind_eq_ok_iff.1 hrest
    have hleft := flags.tidy_fold (Flags.tidy_content flags left hsound.1 hl)
    have hright := flags.tidy_fold (Flags.tidy_content flags right hsound.2 hr)
    cases kind with
    | intersection =>
      cases heq
      exact CodeSet.tidy_inter hleft hright
    | difference =>
      cases heq
      exact CodeSet.tidy_diff hleft hright
    | symmetricDifference =>
      cases heq
      exact CodeSet.tidy_symmDiff hleft hright

end

/-! ### Letters of both cases -/

theorem ranges_ofRanges_single {n : Nat} (hn : n.isValidChar) :
    (CodeSet.ofRanges [(n, n)]).ranges = [(n, n)] := by
  have hclip : CodeSet.clip? (n, n) = some (n, n) := by
    have hsurrogate : ¬ (0xD800 ≤ n ∧ n ≤ 0xDFFF) := by
      simp only [Nat.isValidChar] at hn
      omega
    have hlast : min n Unicode.maxCode = n := by
      simp only [Nat.isValidChar, Unicode.maxCode] at hn ⊢
      omega
    simp only [CodeSet.clip?, if_neg hsurrogate, hlast, Nat.le_refl, if_true]
  simp [CodeSet.ofRanges, hclip, CodeSet.joinFrom]

/-- The letters of a set between two characters end there at the latest. -/
theorem of_mem_inter_range {lo hi : Nat} {r : Nat × Nat}
    (hr : r ∈ (s.inter (.range lo hi)).ranges) :
    r.1 ≤ r.2 ∧ r.2 ≤ hi ∧ ∃ x ∈ s.ranges, x.1 ≤ r.1 := by
  obtain ⟨hproper, x, hx, y, hy, hlower, hupper⟩ := CodeSet.of_mem_interRanges hr
  simp only [CodeSet.range, List.mem_singleton] at hy
  subst hy
  exact ⟨hproper, by omega, x, hx, by omega⟩

theorem isAscii_closeAscii (h : s.isAscii = true) : (closeAscii s).isAscii = true := by
  refine CodeSet.isAscii_ofRanges (List.forall_mem_append.2 ⟨List.forall_mem_append.2 ⟨?_, ?_⟩, ?_⟩)
  · exact CodeSet.isAscii_iff.1 h
  · intro r hr
    obtain ⟨r', hr', rfl⟩ := List.mem_map.1 hr
    have := (of_mem_inter_range hr').2.1
    dsimp only
    omega
  · intro r hr
    obtain ⟨r', hr', rfl⟩ := List.mem_map.1 hr
    have := (of_mem_inter_range hr').2.1
    dsimp only
    omega

theorem ranges_closeAscii_single {n : Nat} (hn : n.isValidChar) (h : 0x80 ≤ n) :
    (closeAscii (.single n)).ranges = [(n, n)] := by
  have hnone (lo hi : Nat) (hhi : hi < 0x80) :
      ((CodeSet.single n).inter (.range lo hi)).ranges = [] := by
    refine List.eq_nil_iff_forall_not_mem.2 fun r hr => ?_
    obtain ⟨hproper, hupper, x, hx, hlower⟩ := of_mem_inter_range hr
    simp only [CodeSet.single, List.mem_singleton] at hx
    subst hx
    dsimp only at hlower
    omega
  simp only [closeAscii, hnone 0x41 0x5A (by decide), hnone 0x61 0x7A (by decide), List.map_nil,
    List.append_nil]
  exact ranges_ofRanges_single hn

/-! ## Expressions -/

theorem Flags.sound_literal {l : Literal} {x : Expr} (h : flags.literal l = .ok x) :
    x.Sound := by
  obtain ⟨c, hc, hrest⟩ := bind_eq_ok_iff.1 h
  dsimp only at hrest
  have hvalid := Unicode.isValidChar_toNat c
  split_ifs at hrest with hsingle
  · cases hrest
    exact .text (List.cons_ne_nil _ _)
  · cases hrest
    refine Expr.sound_ofSet (flags.tidy_fold (CodeSet.tidy_single hvalid)) fun hunicode => ?_
    -- without Unicode, a set is left only by closing an ASCII letter
    unfold Flags.fold at hsingle ⊢
    by_cases hcase : flags.ignoreCase = true
    · simp only [hcase, hunicode, if_true, Bool.false_eq_true, if_false] at hsingle ⊢
      by_cases hsmall : c.toNat < 0x80
      · exact isAscii_closeAscii (CodeSet.isAscii_iff.2 (by simp [CodeSet.single]; omega))
      · exact absurd (ranges_closeAscii_single hvalid (by omega)) hsingle
    · rw [if_neg hcase] at hsingle
      exact absurd rfl hsingle

theorem Flags.sound_dot {x : Expr} (h : flags.dot = .ok x) : x.Sound := by
  unfold Flags.dot at h
  split_ifs at h
  · cases h
    exact Expr.sound_ofSet CodeSet.tidy_all (by simp)
  · cases h
    exact Expr.sound_ofSet (CodeSet.tidy_compl (CodeSet.tidy_ofRanges _)) (by simp)
  · cases h
    exact Expr.sound_ofSet (CodeSet.tidy_compl (CodeSet.tidy_single (by decide))) (by simp)

mutual

theorem sound_ofPatternFrom : ∀ (pat : Pattern) {flags flags' : Flags} {x : Expr},
    pat.Sound → Expr.ofPatternFrom flags pat = .ok (x, flags') → x.Sound
  | .empty, _, _, _, _, h => by
    cases h
    exact .empty
  | .flags items, _, _, _, _, h => by
    cases h
    exact .empty
  | .literal l, _, _, _, _, h => by
    obtain ⟨x, hx, heq⟩ := bind_eq_ok_iff.1 h
    cases heq
    exact Flags.sound_literal hx
  | .dot, _, _, _, _, h => by
    obtain ⟨x, hx, heq⟩ := bind_eq_ok_iff.1 h
    cases heq
    exact Flags.sound_dot hx
  | .assertion a, _, _, _, _, h => by
    cases h
    exact .look
  | .property name negated, _, _, _, _, h => by
    obtain ⟨s, hs, heq⟩ := bind_eq_ok_iff.1 h
    cases heq
    exact Expr.sound_ofSet (Flags.tidy_property hs) (by simp)
  | .perl kind negated, _, _, _, _, h => by
    obtain ⟨s, hs, heq⟩ := bind_eq_ok_iff.1 h
    cases heq
    exact (Flags.takes_perl hs).sound
  | .bracketed negated content, flags, _, _, hsound, h => by
    obtain ⟨t, ht, hrest⟩ := bind_eq_ok_iff.1 h
    obtain ⟨s, hs, heq⟩ := bind_eq_ok_iff.1 hrest
    cases heq
    exact (Flags.takes_of_foldAndNegate (flags.tidy_content content hsound ht) hs).sound
  | .repetition least greatest greedy sub, _, _, _, hsound, h => by
    obtain ⟨⟨x, flags⟩, hx, heq⟩ := bind_eq_ok_iff.1 h
    cases heq
    exact Expr.sound_ofRepetition hsound.1 (sound_ofPatternFrom sub hsound.2 hx)
  | .group (.capture index name) sub, _, _, _, hsound, h => by
    obtain ⟨⟨x, flags⟩, hx, heq⟩ := bind_eq_ok_iff.1 h
    cases heq
    exact .capture hsound.1 (sound_ofPatternFrom sub hsound.2 hx)
  | .group (.flags items) sub, _, _, _, hsound, h => by
    obtain ⟨⟨x, flags⟩, hx, heq⟩ := bind_eq_ok_iff.1 h
    cases heq
    exact sound_ofPatternFrom sub hsound.2 hx
  | .alternation branches, _, _, _, hsound, h => by
    obtain ⟨⟨xs, flags⟩, hxs, heq⟩ := bind_eq_ok_iff.1 h
    cases heq
    exact (Expr.alternates_ofAlternation (sound_ofPatternList branches hsound hxs)).sound
  | .concat parts, _, _, _, hsound, h => by
    obtain ⟨⟨xs, flags⟩, hxs, heq⟩ := bind_eq_ok_iff.1 h
    cases heq
    exact Expr.sound_ofConcat (sound_ofPatternList parts hsound hxs)

theorem sound_ofPatternList : ∀ (pats : List Pattern) {flags flags' : Flags} {xs : List Expr},
    Pattern.AllSound pats → Expr.ofPatternList flags pats = .ok (xs, flags') →
      ∀ x ∈ xs, x.Sound
  | [], _, _, _, _, h => by
    cases h
    simp
  | pat :: pats, _, _, _, hsound, h => by
    obtain ⟨⟨x, flags⟩, hx, hrest⟩ := bind_eq_ok_iff.1 h
    obtain ⟨⟨xs, flags'⟩, hxs, heq⟩ := bind_eq_ok_iff.1 hrest
    cases heq
    exact List.forall_mem_cons.2
      ⟨sound_ofPatternFrom pat hsound.1 hx, sound_ofPatternList pats hsound.2 hxs⟩

end

/-- What is made of a text is well-formed. -/
theorem parse_wellFormed {source : String} {x : Expr} (h : parse source = .ok x) :
    x.WellFormed := by
  obtain ⟨pat, hread, hrest⟩ := bind_eq_ok_iff.1 h
  obtain ⟨⟨y, flags⟩, hy, heq⟩ := bind_eq_ok_iff.1 hrest
  cases heq
  obtain ⟨hsound, hnodup⟩ := sound_read hread
  exact ⟨sound_ofPatternFrom pat hsound hy,
    Multiset.nodup_of_le (names_ofPatternFrom pat hy) hnodup⟩

end

end TestSelection.Regex
