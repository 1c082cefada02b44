import Mathlib.Tactic.IntervalCases
import TestSelection.Proofs.Regex.Names
import TestSelection.Regex.Expr.Printer

/-!
# Reading pieces of patterns

What the reader does with one piece of a text does not depend on what stands behind it, as long as
that cannot be part of the piece. A text *leads* to its rest if reading both comes down to reading
the rest, with progress of a certain kind (`Leads`). Longer pieces are put together from shorter
ones.

The pieces are those that expressions are printed as: single characters, groups, repetition
operators, classes in brackets and conditions. For most of them the progress is one part more
(`Progress.Gains`) or one more open group (`Progress.Enters`).
-/

namespace TestSelection.Regex

open Unicode (CodeSet)

/-! ## Pieces of a text -/

/-- To read a text with a rest behind it is to read the rest, after something with a property. -/
def Leads (p : Progress) (text rest : List Char) (Q : Progress → Prop) : Prop :=
  ∀ steps, (text ++ rest).length < steps →
    ∃ q left, Q q ∧ rest.length < left ∧ readAll steps p (text ++ rest) = readAll left q rest

variable {p q : Progress} {text rest : List Char} {P Q : Progress → Prop}

namespace Leads

theorem refl (h : Q p) : Leads p [] rest Q := fun steps hsteps => ⟨p, steps, h, hsteps, rfl⟩

theorem trans {text' : List Char} (h : Leads p text (text' ++ rest) Q)
    (h' : ∀ q, Q q → Leads q text' rest P) : Leads p (text ++ text') rest P := by
  intro steps hsteps
  rw [List.append_assoc] at hsteps ⊢
  obtain ⟨q, left, hq, hleft, hread⟩ := h steps hsteps
  obtain ⟨q', left', hq', hleft', hread'⟩ := h' q hq left hleft
  exact ⟨q', left', hq', hleft', hread.trans hread'⟩

theorem imp (h : Leads p text rest Q) (himp : ∀ q, Q q → P q) : Leads p text rest P := by
  intro steps hsteps
  obtain ⟨q, left, hq, hleft, hread⟩ := h steps hsteps
  exact ⟨q, left, himp q hq, hleft, hread⟩

/-- A text that is read in one step. -/
theorem step (hspace : p.ignoreSpace = false) (hne : text ≠ [])
    (h : readStep p (text ++ rest) = .ok (q, rest)) (hq : Q q) : Leads p text rest Q := by
  intro steps hsteps
  obtain ⟨steps, rfl⟩ : ∃ n, steps = n + 1 := ⟨steps - 1, by omega⟩
  obtain ⟨c, cs, rfl⟩ := List.exists_cons_of_ne_nil hne
  refine ⟨q, steps, hq, ?_, ?_⟩
  · rw [List.length_append, List.length_cons] at hsteps
    omega
  · rw [readAll, hspace, skip, if_neg Bool.false_ne_true, List.cons_append]
    rw [List.cons_append] at h
    simp only [h]
    rfl

end Leads

/-- One more part was read at the same level. -/
structure Progress.Gains (p : Progress) (part : Pattern) (q : Progress) : Prop where
  parts : q.parts = part :: p.parts
  branches : q.branches = p.branches
  frames : q.frames = p.frames
  ignoreSpace : q.ignoreSpace = false
  names : (q.names : Multiset String) = part.names + p.names

theorem gains_push (hspace : p.ignoreSpace = false) {part : Pattern} (hnames : part.names = 0) :
    p.Gains part (p.push part) :=
  ⟨rfl, rfl, rfl, hspace, by rw [hnames, zero_add]; rfl⟩

/-! ## Single characters -/

theorem readEscape_of_isMeta {c : Char} (hc : isMeta c = true) (rest : List Char) :
    readEscape false (c :: rest) = .ok (.literal ⟨c, false⟩, rest) := by
  simp only [isMeta, List.contains_eq_mem, List.mem_cons, List.not_mem_nil, or_false,
    decide_eq_true_eq] at hc
  rcases hc with rfl | rfl | rfl | rfl | rfl | rfl | rfl | rfl | rfl | rfl | rfl | rfl | rfl | rfl |
    rfl | rfl | rfl | rfl <;> rfl

theorem readPrimitive_of_not_isMeta {c : Char} (hc : isMeta c = false) (rest : List Char) :
    readPrimitive false (c :: rest) = .ok (.literal ⟨c, false⟩, rest) := by
  unfold readPrimitive
  split <;> simp_all [isMeta]

theorem readStep_of_not_isMeta {c : Char} (hspace : p.ignoreSpace = false)
    (hc : isMeta c = false) (rest : List Char) :
    readStep p (c :: rest) = .ok (p.push (.literal ⟨c, false⟩), rest) := by
  have hprimitive := readPrimitive_of_not_isMeta hc rest
  unfold readStep
  split <;> simp_all [isMeta]
  rfl

theorem readStep_plainChar (hspace : p.ignoreSpace = false) (c : Char) (rest : List Char) :
    readStep p (plainChar c ++ rest) = .ok (p.push (.literal ⟨c, false⟩), rest) := by
  unfold plainChar
  split_ifs with hc
  · have hread : readPrimitive p.ignoreSpace ('\\' :: c :: rest) =
        .ok (.literal ⟨c, false⟩, rest) := by
      rw [hspace]
      exact readEscape_of_isMeta hc rest
    show (readPrimitive p.ignoreSpace ('\\' :: c :: rest) >>= fun x =>
      pure (p.push x.1.toPattern, x.2)) = _
    rw [hread]
    rfl
  · exact readStep_of_not_isMeta hspace (Bool.eq_false_iff.2 hc) rest

theorem leads_plainChar (hspace : p.ignoreSpace = false) (c : Char) (rest : List Char) :
    Leads p (plainChar c) rest (p.Gains (.literal ⟨c, false⟩)) := by
  have hne : plainChar c ≠ [] := by unfold plainChar; split_ifs <;> simp
  exact .step hspace hne (readStep_plainChar hspace c rest) (gains_push hspace rfl)

/-! ## Groups -/

/-- The state at the start of a group inside another state. -/
structure Progress.Enters (p : Progress) (kind : GroupKind) (q : Progress) : Prop where
  parts : q.parts = []
  branches : q.branches = []
  frames : q.frames = ⟨p.parts, p.branches, kind, false⟩ :: p.frames
  ignoreSpace : q.ignoreSpace = false
  names : (q.names : Multiset String) = kind.names + p.names

theorem enters_enter_flags (hspace : p.ignoreSpace = false) {items : List FlagItem}
    (hitems : FlagItem.state? .ignoreSpace items = none) :
    p.Enters (.flags items) (p.enter (.flags items)) where
  parts := rfl
  branches := rfl
  frames := by rw [← hspace]; rfl
  ignoreSpace := by simp only [Progress.enter, hitems, Option.getD_none, hspace]
  names := (zero_add _).symm

/-- The level in hand was read up to the end of its group. -/
structure Progress.Fills (p : Progress) (level : Pattern → Prop) (q : Progress) : Prop where
  frames : q.frames = p.frames
  ignoreSpace : q.ignoreSpace = false
  level : level q.level
  names : (q.names : Multiset String) = q.level.names + p.names

/-- A group is read if its opening and its body are. -/
theorem leads_group {kind : GroupKind} {level : Pattern → Prop} {opening body : List Char}
    (hspace : p.ignoreSpace = false) (hne : opening ≠ [])
    (hopen : readStep p (opening ++ (body ++ ')' :: rest)) = .ok (q, body ++ ')' :: rest))
    (hq : p.Enters kind q) (hbody : Leads q body (')' :: rest) (q.Fills level)) :
    Leads p (opening ++ body ++ [')']) rest fun q' =>
      ∃ sub, level sub ∧ p.Gains (.group kind sub) q' := by
  have hopened : Leads p opening (body ++ ')' :: rest) (· = q) := .step hspace hne hopen rfl
  have hfilled : Leads p (opening ++ body) (')' :: rest) (q.Fills level) := by
    refine hopened.trans ?_
    rintro _ rfl
    exact hbody
  refine hfilled.trans fun q' hq' => ?_
  have hframes := hq'.frames.trans hq.frames
  have hleave : readStep q' (')' :: rest) = .ok
      ({ q' with
        parts := .group kind q'.level :: p.parts
        branches := p.branches
        frames := p.frames
        ignoreSpace := false }, rest) := by
    simp only [readStep, Progress.leave, hframes]
    rfl
  refine .step hq'.ignoreSpace (List.cons_ne_nil _ _) hleave ⟨q'.level, hq'.level, ?_⟩
  refine ⟨rfl, rfl, rfl, rfl, ?_⟩
  rw [hq'.names, hq.names, Pattern.names, add_left_comm, add_assoc]

/-- The text opens a group with flags that leave white space alone. -/
structure Opens (opening : List Char) (items : List FlagItem) : Prop where
  read : ∀ (p : Progress) rest, p.ignoreSpace = false →
    readStep p (opening ++ rest) = .ok (p.enter (.flags items), rest)
  ne_nil : opening ≠ []
  keepsSpace : FlagItem.state? .ignoreSpace items = none

theorem opens_plain : Opens "(?:".toList [] where
  read p rest hspace := by cases p; cases hspace; rfl
  ne_nil := List.cons_ne_nil _ _
  keepsSpace := rfl

theorem opens_multiLine : Opens "(?m:".toList [.flag .multiLine] where
  read p rest hspace := by cases p; cases hspace; rfl
  ne_nil := List.cons_ne_nil _ _
  keepsSpace := rfl

theorem opens_multiLineCRLF : Opens "(?mR:".toList [.flag .multiLine, .flag .crlf] where
  read p rest hspace := by cases p; cases hspace; rfl
  ne_nil := List.cons_ne_nil _ _
  keepsSpace := rfl

theorem opens_ascii : Opens "(?-u:".toList [.negation, .flag .unicode] where
  read p rest hspace := by cases p; cases hspace; rfl
  ne_nil := List.cons_ne_nil _ _
  keepsSpace := rfl

/-- A group with a new name is entered. -/
theorem readStep_named {name : String} (hspace : p.ignoreSpace = false) (hname : IsGroupName name)
    (hnew : name ∉ p.names) (rest : List Char) :
    ∃ q, readStep p ("(?P<".toList ++ name.toList ++ '>' :: rest) = .ok (q, rest) ∧
      p.Enters (.capture (p.captures + 1) (some name)) q := by
  obtain ⟨parts, branches, frames, ignoreSpace, captures, names⟩ := p
  cases hspace
  let named : Progress := ⟨parts, branches, frames, false, captures + 1, name :: names⟩
  refine ⟨named.enter (.capture (captures + 1) (some name)), ?_, rfl, rfl, rfl, rfl, rfl⟩
  have hempty : name.toList.isEmpty = false := List.isEmpty_eq_false_iff.2 hname.ne_nil
  have hcontains : names.contains name = false := by simpa using hnew
  rw [List.append_assoc]
  show (readNameFrom true (name.toList ++ '>' :: rest) >>= fun x => _) = _
  rw [hname.read]
  simp only [bind, Except.bind, hempty, String.ofList_toList, hcontains, Bool.false_eq_true,
    if_false]
  rfl

theorem readStep_unnamed (hspace : p.ignoreSpace = false) (hrest : rest.head? ≠ some '?') :
    ∃ q, readStep p ('(' :: rest) = .ok (q, rest) ∧
      p.Enters (.capture (p.captures + 1) none) q := by
  refine ⟨{ p with captures := p.captures + 1 }.enter (.capture (p.captures + 1) none), ?_,
    rfl, rfl, by rw [← hspace]; rfl, hspace, (zero_add _).symm⟩
  simp only [readStep, readOpenGroup, hspace, skip, Bool.false_eq_true, if_false]
  split <;> simp_all

/-! ## Numbers -/

theorem le_toNat_of_isDigit {c : Char} (hc : c.isDigit = true) : 48 ≤ c.toNat ∧ c.toNat ≤ 57 := by
  simp only [Char.isDigit, Bool.and_eq_true, decide_eq_true_eq, ge_iff_le] at hc
  exact hc

theorem isDigit_iff {c : Char} : c.isDigit = true ↔ '0' ≤ c ∧ c ≤ '9' := by
  simp [Char.isDigit, Char.le_def]

theorem isBlank_eq_false {c : Char} (hlo : 0x20 < c.toNat) (hhi : c.toNat < 0x85) :
    Text.isBlank c = false := by
  have hvisible : ∀ n < 0x85, 0x20 < n → Unicode.Listed.whiteSpace.mem n = false := by decide
  exact hvisible c.toNat hhi hlo

theorem takeDigits_append {digits : List Char} (hdigits : ∀ c ∈ digits, c.isDigit = true)
    {c : Char} (hc : c.isDigit = false) {steps : Nat}
    (hsteps : (digits ++ c :: rest).length ≤ steps) :
    takeDigits false steps (digits ++ c :: rest) = (digits, c :: rest) := by
  induction digits generalizing steps with
  | nil =>
    cases steps with
    | zero => rfl
    | succ steps =>
      have hnot : ¬ ('0' ≤ c ∧ c ≤ '9') := by
        rw [← isDigit_iff, hc]
        exact Bool.false_ne_true
      rw [List.nil_append, takeDigits, if_neg hnot]
  | cons d ds ih =>
    rw [List.forall_mem_cons] at hdigits
    cases steps with
    | zero => simp at hsteps
    | succ steps =>
      have hd : '0' ≤ d ∧ d ≤ '9' := isDigit_iff.1 hdigits.1
      simp only [List.cons_append, List.length_cons] at hsteps
      rw [List.cons_append, takeDigits, if_pos hd, skip, if_neg Bool.false_ne_true,
        ih hdigits.2 (by omega)]

/-- A number that was written is read again, if it is not too large. -/
theorem readDecimal_toDigits {n : Nat} {c : Char} (hn : n < UInt32.size) (hc : c.isDigit = false)
    (hblank : Text.isBlank c = false) :
    readDecimal false (Nat.toDigits 10 n ++ c :: rest) = (.ok n, c :: rest) := by
  have hdigits : ∀ d ∈ Nat.toDigits 10 n, d.isDigit = true :=
    fun d hd => Nat.isDigit_of_mem_toDigits (by decide) (by decide) hd
  have hvalue : (Nat.toDigits 10 n).foldl (fun n c => 10 * n + (c.toNat - '0'.toNat)) 0 = n :=
    Nat.ofDigitChars_toDigits (by decide) (by decide)
  have hdrop : (Nat.toDigits 10 n ++ c :: rest).dropWhile Text.isBlank =
      Nat.toDigits 10 n ++ c :: rest := by
    cases h : Nat.toDigits 10 n with
    | nil => exact absurd h Nat.toDigits_ne_nil
    | cons d ds =>
      have hd := le_toNat_of_isDigit (hdigits d (h ▸ List.mem_cons_self))
      rw [List.cons_append, List.dropWhile_cons_of_neg]
      rw [isBlank_eq_false (by omega) (by omega)]
      exact Bool.false_ne_true
  have hempty : (Nat.toDigits 10 n).isEmpty = false := by
    simp [List.isEmpty_eq_false_iff, Nat.toDigits_ne_nil]
  have hafter : dropBlanks false (c :: rest).length (c :: rest) = c :: rest := by
    rw [List.length_cons, dropBlanks, hblank, if_neg Bool.false_ne_true]
  simp only [readDecimal, hdrop, takeDigits_append hdigits hc (Nat.le_refl _), hafter, hvalue,
    hempty, Bool.false_eq_true, if_false, if_neg (Nat.not_le.2 hn)]

/-! ## Repetition operators -/

/-- The mark behind an operator that prefers few. -/
def greedMark (greedy : Bool) : List Char := if greedy then [] else ['?']

theorem readGreed_append {greedy : Bool} (hrest : greedy = true → rest.head? ≠ some '?') :
    readGreed (greedMark greedy ++ rest) = (greedy, rest) := by
  cases greedy with
  | false => rfl
  | true =>
    show readGreed rest = (true, rest)
    unfold readGreed
    split <;> simp_all

section

variable {part : Pattern} {parts : List Pattern}

/-- The part can be repeated. -/
def Pattern.Repeatable (part : Pattern) : Prop := part ≠ .empty ∧ ∀ items, part ≠ .flags items

theorem takeOperand_eq (hparts : p.parts = part :: parts) (hpart : part.Repeatable) :
    p.takeOperand = .ok (part, { p with parts }) := by
  obtain ⟨hempty, hflags⟩ := hpart
  simp only [Progress.takeOperand, hparts]

theorem readRepetition_eq (hparts : p.parts = part :: parts) (hpart : part.Repeatable)
    (least : Nat) (greatest : Option Nat) {greedy : Bool}
    (hrest : greedy = true → rest.head? ≠ some '?') :
    readRepetition p least greatest (greedMark greedy ++ rest) =
      .ok ({ p with parts := .repetition least greatest greedy part :: parts }, rest) := by
  simp only [readRepetition, takeOperand_eq hparts hpart, readGreed_append hrest]
  rfl

/-- The bounds between the braces. -/
def boundsText (least : Nat) (greatest : Option Nat) : List Char :=
  match greatest with
  | none => Nat.toDigits 10 least ++ [',']
  | some n =>
    if least = n then Nat.toDigits 10 n else Nat.toDigits 10 least ++ ',' :: Nat.toDigits 10 n

theorem exists_cons_toDigits (n : Nat) :
    ∃ c cs, Nat.toDigits 10 n = c :: cs ∧ c.isDigit = true := by
  obtain ⟨c, cs, hdigits⟩ := List.exists_cons_of_ne_nil (Nat.toDigits_ne_nil (n := n) (b := 10))
  refine ⟨c, cs, hdigits, Nat.isDigit_of_mem_toDigits (b := 10) (n := n) (by decide) (by decide) ?_⟩
  rw [hdigits]
  exact List.mem_cons_self

theorem exists_cons_boundsText (least : Nat) (greatest : Option Nat) :
    ∃ c cs, boundsText least greatest = c :: cs ∧ c.isDigit = true := by
  unfold boundsText
  split
  · obtain ⟨c, cs, hdigits, hc⟩ := exists_cons_toDigits least
    exact ⟨c, cs ++ [','], by rw [hdigits, List.cons_append], hc⟩
  · next n =>
    split_ifs
    · exact exists_cons_toDigits n
    · obtain ⟨c, cs, hdigits, hc⟩ := exists_cons_toDigits least
      exact ⟨c, cs ++ ',' :: Nat.toDigits 10 n, by rw [hdigits, List.cons_append], hc⟩

theorem readCounts_boundsText {least : Nat} {greatest : Option Nat}
    (h : Bounds least greatest) :
    readCounts false (boundsText least greatest ++ '\x7d' :: rest) =
      .ok (least, greatest, '\x7d' :: rest) := by
  cases greatest with
  | none =>
    rw [boundsText, List.append_assoc, List.singleton_append, readCounts,
      readDecimal_toDigits h.least_lt (by decide) (by decide)]
    rfl
  | some n =>
    have hn : n < UInt32.size := h.greatest_lt n rfl
    rw [boundsText]
    by_cases heq : least = n
    · rw [if_pos heq, readCounts, readDecimal_toDigits hn (by decide) (by decide), heq]
      rfl
    · rw [if_neg heq, List.append_assoc, readCounts, List.cons_append,
        readDecimal_toDigits h.least_lt (by decide) (by decide)]
      simp only [skip, Bool.false_eq_true, if_false]
      split
      · next hnil => simp [Nat.toDigits_ne_nil] at hnil
      · next cs hcs =>
        obtain ⟨c, cs', hdigits, hc⟩ := exists_cons_toDigits n
        rw [hdigits, List.cons_append, List.cons.injEq] at hcs
        rw [hcs.1] at hc
        exact absurd hc (by decide)
      · rw [readDecimal_toDigits hn (by decide) (by decide)]
        rfl

/-- The character is the operator of a repetition. -/
structure IsOperator (c : Char) (least : Nat) (greatest : Option Nat) : Prop where
  read : ∀ p rest, readStep p (c :: rest) = readRepetition p least greatest rest
  option : c = '?' → least = 0 ∧ greatest = some 1
  ne_brace : c ≠ '\x7b'

/-- An operator without the mark for its preference. -/
def operatorCore (least : Nat) (greatest : Option Nat) : List Char :=
  if least = 0 ∧ greatest = some 1 then ['?']
  else if least = 0 ∧ greatest = none then ['*']
  else if least = 1 ∧ greatest = none then ['+']
  else '\x7b' :: boundsText least greatest ++ ['\x7d']

/-- An operator is a character or shows the bounds. -/
theorem operatorCore_cases (least : Nat) (greatest : Option Nat) :
    (∃ c, IsOperator c least greatest ∧ operatorCore least greatest = [c]) ∨
      operatorCore least greatest = '\x7b' :: boundsText least greatest ++ ['\x7d'] := by
  unfold operatorCore
  split_ifs with hoption hstar hplus
  · obtain ⟨rfl, rfl⟩ := hoption
    exact .inl ⟨'?', ⟨fun _ _ => rfl, by simp, by decide⟩, rfl⟩
  · obtain ⟨rfl, rfl⟩ := hstar
    exact .inl ⟨'*', ⟨fun _ _ => rfl, by simp, by decide⟩, rfl⟩
  · obtain ⟨rfl, rfl⟩ := hplus
    exact .inl ⟨'+', ⟨fun _ _ => rfl, by simp, by decide⟩, rfl⟩
  · exact .inr rfl

/-- What is printed for an operator. An exact count has no preference to show. -/
theorem operatorText_eq {least : Nat} {greatest : Option Nat} {greedy : Bool}
    (hsome : ¬ (least = 1 ∧ greatest = some 1)) :
    operatorText least greatest greedy =
      operatorCore least greatest ++ greedMark (greedy || greatest == some least) := by
  have hlazily (operator : List Char) : (if greedy then operator else operator ++ ['?']) =
      operator ++ greedMark greedy := by
    cases greedy <;> simp [greedMark]
  cases greatest with
  | none =>
    simp only [operatorText, operatorCore, boundsText, hlazily]
    by_cases hzero : least = 0
    · simp [hzero]
    · by_cases hone : least = 1
      · simp [hone]
      · simp [hzero, hone]
  | some n =>
    by_cases hn : n = 1
    · subst hn
      simp only [operatorText, operatorCore, boundsText, hlazily]
      by_cases hzero : least = 0
      · simp [hzero]
      · have hone : least ≠ 1 := fun h => hsome ⟨h, rfl⟩
        have hdigits : Nat.toDigits 10 1 = ['1'] := rfl
        have hexact : (1 == least) = false := beq_false_of_ne hone.symm
        simp [hzero, hone, hdigits, hexact]
    · have hother : operatorText least (some n) greedy =
          if least = n then '\x7b' :: Nat.toDigits 10 n ++ ['\x7d']
          else '\x7b' :: Nat.toDigits 10 least ++ ',' :: Nat.toDigits 10 n ++ ['\x7d'] ++
            greedMark greedy := by
        rw [operatorText, ← hlazily]
        simpa using hn
      rw [hother, operatorCore, boundsText]
      by_cases heq : least = n
      · simp [heq, hn, greedMark]
      · have hexact : (n == least) = false := beq_false_of_ne (Ne.symm heq)
        simp [heq, hn, hexact]

theorem readCounted_eq {least : Nat} {greatest : Option Nat} {greedy : Bool}
    (hspace : p.ignoreSpace = false) (hparts : p.parts = part :: parts) (hpart : part.Repeatable)
    (hbounds : Bounds least greatest) (hrest : greedy = true → rest.head? ≠ some '?') :
    readCounted p (boundsText least greatest ++ '\x7d' :: (greedMark greedy ++ rest)) =
      .ok ({ p with parts := .repetition least greatest greedy part :: parts }, rest) := by
  have hordered : greatest.all (fun n => decide (least ≤ n)) = true := by
    rw [Option.all_eq_true]
    exact fun n hn => decide_eq_true (hbounds.ordered n hn)
  simp only [readCounted, takeOperand_eq hparts hpart, hspace, skip, bind, Except.bind,
    Bool.false_eq_true, if_false, readCounts_boundsText hbounds, readGreed_append hrest, hordered,
    if_true]
  rw [if_neg (by simp)]
  rfl

/-- An operator with its mark repeats the part before it, unless another mark follows that would
belong to it. -/
theorem leads_operator {least : Nat} {greatest : Option Nat} {greedy : Bool}
    (hq : p.Gains part q) (hpart : part.Repeatable) (hbounds : Bounds least greatest)
    (hrest : greedy = true → rest.head? ≠ some '?') :
    Leads q (operatorCore least greatest ++ greedMark greedy) rest
      (p.Gains (.repetition least greatest greedy part)) := by
  have hgains : p.Gains (.repetition least greatest greedy part)
      { q with parts := .repetition least greatest greedy part :: p.parts } :=
    ⟨rfl, hq.branches, hq.frames, hq.ignoreSpace, hq.names⟩
  rcases operatorCore_cases least greatest with ⟨c, hc, htext⟩ | htext
  · rw [htext]
    refine .step hq.ignoreSpace (List.cons_ne_nil _ _) ?_ hgains
    rw [List.append_assoc, List.singleton_append, hc.read]
    exact readRepetition_eq hq.parts hpart least greatest hrest
  · rw [htext]
    refine .step hq.ignoreSpace (by simp) ?_ hgains
    rw [List.cons_append, List.append_assoc, List.cons_append, List.append_assoc]
    exact readCounted_eq hq.ignoreSpace hq.parts hpart hbounds hrest

end

/-! ## Classes -/

/-- A text is read as a literal in a class, and cannot be taken for anything else there. -/
structure ReadsAs (text : List Char) (l : Literal) : Prop where
  read : ∀ rest, readMember false (text ++ rest) = .ok (.literal l, rest)
  head : ∃ c cs, text = c :: cs ∧ c ∉ ['[', ']', '-', '^', '&', '~']

theorem readsAs_plainChar (c : Char) : ReadsAs (plainChar c) ⟨c, false⟩ := by
  unfold plainChar
  split_ifs with hc
  · exact ⟨fun rest => readEscape_of_isMeta hc rest, '\\', [c], rfl, by decide⟩
  · refine ⟨fun rest => ?_, c, [], rfl, ?_⟩
    · unfold readMember
      split <;> simp_all [isMeta]
    · rw [Bool.not_eq_true] at hc
      simp_all [isMeta]

/-- The literal for a byte. Control characters are written by their numbers. -/
def byteLiteral (n : Nat) : Literal := ⟨Char.ofNat n, !decide (0x20 ≤ n ∧ n ≤ 0x7E)⟩

theorem readsAs_byteChar {n : Nat} (hn : n < 0x80) : ReadsAs (byteChar n) (byteLiteral n) := by
  by_cases hvisible : 0x21 ≤ n ∧ n ≤ 0x7E
  · have hplain : 0x20 ≤ n ∧ n ≤ 0x7E := ⟨by omega, hvisible.2⟩
    rw [byteChar, if_pos hvisible, byteLiteral, decide_eq_true hplain]
    exact readsAs_plainChar _
  by_cases hspace : n = 0x20
  · subst hspace
    exact ⟨fun rest => rfl, ' ', [], rfl, by decide⟩
  have hcontrol : n < 0x20 ∨ n = 0x7F := by omega
  refine ⟨fun rest => ?_, '\\',
    'x' :: [Nat.digitChar (n / 16 % 16), Nat.digitChar (n % 16)].map Char.toUpper, ?_, by decide⟩
  · rcases hcontrol with hlow | rfl
    · interval_cases n <;> rfl
    · rfl
  · rw [byteChar, if_neg hvisible, if_neg hspace]
    rfl

section

variable {text text' : List Char} {l l' : Literal} {items : List ClassItem}
  {frames : List ClassFrame} {steps : Nat}

theorem readRange_single {c : Char} (h : ReadsAs text l) (hc : c ≠ '-') :
    readRange false (text ++ c :: rest) = .ok (.literal l, c :: rest) := by
  have hfirst : (c != '-') = true := bne_iff_ne.2 hc
  simp only [readRange, h.read, skip, Bool.false_eq_true, if_false, bind, Except.bind, hfirst,
    Bool.true_or, if_true]
  rfl

theorem readRange_range (h : ReadsAs text l) (h' : ReadsAs text' l') (hle : l.char ≤ l'.char) :
    readRange false (text ++ '-' :: (text' ++ rest)) = .ok (.range l l', rest) := by
  have hread := h'.read rest
  obtain ⟨c, cs, rfl, hc⟩ := h'.head
  rw [List.cons_append] at hread
  have hbracket : c ≠ ']' := by
    rintro rfl
    exact hc (by decide)
  have hhyphen : c ≠ '-' := by
    rintro rfl
    exact hc (by decide)
  simp only [readRange, h.read, skip, Bool.false_eq_true, if_false, bind, Except.bind]
  simp [lookAhead?, advance, skip, hbracket, hhyphen, hread, Primitive.toBoundary, hle, pure,
    Except.pure]

/-- A text that starts neither a class nor an operator is a character or a range. -/
theorem readClassFrom_of_head (h : ReadsAs text l) :
    readClassFrom false (steps + 1) items frames (text ++ rest) = (do
      let (item, rest) ← readRange false (text ++ rest)
      readClassFrom false steps (item :: items) frames rest) := by
  obtain ⟨c, cs, rfl, hc⟩ := h.head
  simp only [List.mem_cons, List.not_mem_nil, or_false, not_or] at hc
  have hop : classOp? (c :: (cs ++ rest)) = none := by
    unfold classOp?
    split <;> simp_all
  rw [readClassFrom, skip, if_neg Bool.false_ne_true, List.cons_append]
  split
  all_goals simp_all

/-! ### Ranges -/

/-- A range as it is printed, given how its ends are. -/
def rangeTextOf (char : Nat → List Char) (r : Nat × Nat) : List Char :=
  if r.1 = r.2 then char r.1
  else if r.1 + 1 = r.2 then char r.1 ++ char r.2
  else char r.1 ++ '-' :: char r.2

theorem rangeText_eq : rangeText = rangeTextOf fun n => plainChar (Char.ofNat n) := rfl

theorem byteRangeText_eq : byteRangeText = rangeTextOf byteChar := rfl

/-- The parts of a class that a printed range is read as. -/
def rangeItems (literal : Nat → Literal) (r : Nat × Nat) : List ClassItem :=
  if r.1 = r.2 then [.literal (literal r.1)]
  else if r.1 + 1 = r.2 then [.literal (literal r.1), .literal (literal r.2)]
  else [.range (literal r.1) (literal r.2)]

/-- Both ends of a range are read as literals, in order. -/
structure ReadsEnds (char : Nat → List Char) (literal : Nat → Literal) (r : Nat × Nat) : Prop where
  lower : ReadsAs (char r.1) (literal r.1)
  upper : ReadsAs (char r.2) (literal r.2)
  ordered : (literal r.1).char ≤ (literal r.2).char

variable {char : Nat → List Char} {literal : Nat → Literal} {r : Nat × Nat} {rs : List (Nat × Nat)}

theorem ReadsAs.ne_hyphen (h : ReadsAs text l) : ∃ c cs, text = c :: cs ∧ c ≠ '-' := by
  obtain ⟨c, cs, htext, hc⟩ := h.head
  refine ⟨c, cs, htext, ?_⟩
  rintro rfl
  exact hc (by decide)

theorem readClassFrom_single {c : Char} (h : ReadsAs text l) (hc : c ≠ '-') :
    readClassFrom false (steps + 1) items frames (text ++ c :: rest) =
      readClassFrom false steps (.literal l :: items) frames (c :: rest) := by
  rw [readClassFrom_of_head h, readRange_single h hc]
  rfl

/-- A range is read as its parts, if no hyphen follows. -/
theorem readClassFrom_range (items : List ClassItem) (frames : List ClassFrame) {c : Char}
    (h : ReadsEnds char literal r) (hc : c ≠ '-')
    (hsteps : (rangeTextOf char r ++ c :: rest).length < steps) :
    ∃ left, (c :: rest).length < left ∧
      readClassFrom false steps items frames (rangeTextOf char r ++ c :: rest) =
        readClassFrom false left ((rangeItems literal r).reverse ++ items) frames (c :: rest) := by
  obtain ⟨d, ds, hlower, hd⟩ := h.lower.ne_hyphen
  obtain ⟨e, es, hupper, he⟩ := h.upper.ne_hyphen
  by_cases hone : r.1 = r.2
  · rw [rangeTextOf, if_pos hone] at hsteps ⊢
    rw [rangeItems, if_pos hone]
    obtain ⟨steps, rfl⟩ : ∃ n, steps = n + 1 := ⟨steps - 1, by omega⟩
    refine ⟨steps, ?_, readClassFrom_single h.lower hc⟩
    simp only [hlower, List.length_append, List.length_cons] at hsteps ⊢
    omega
  by_cases htwo : r.1 + 1 = r.2
  · rw [rangeTextOf, if_neg hone, if_pos htwo, List.append_assoc] at hsteps ⊢
    rw [rangeItems, if_neg hone, if_pos htwo]
    obtain ⟨steps, rfl⟩ : ∃ n, steps = n + 2 := by
      simp only [hlower, hupper, List.length_append, List.length_cons] at hsteps
      exact ⟨steps - 2, by omega⟩
    refine ⟨steps, ?_, ?_⟩
    · simp only [hlower, hupper, List.length_append, List.length_cons] at hsteps ⊢
      omega
    · have hfirst : readClassFrom false (steps + 2) items frames
          (char r.1 ++ (char r.2 ++ c :: rest)) =
            readClassFrom false (steps + 1) (.literal (literal r.1) :: items) frames
              (char r.2 ++ c :: rest) := by
        rw [hupper, List.cons_append]
        exact readClassFrom_single h.lower he
      rw [hfirst]
      exact readClassFrom_single h.upper hc
  · rw [rangeTextOf, if_neg hone, if_neg htwo, List.append_assoc, List.cons_append] at hsteps ⊢
    rw [rangeItems, if_neg hone, if_neg htwo]
    obtain ⟨steps, rfl⟩ : ∃ n, steps = n + 1 := ⟨steps - 1, by omega⟩
    refine ⟨steps, ?_, ?_⟩
    · simp only [hlower, hupper, List.length_append, List.length_cons] at hsteps ⊢
      omega
    · rw [readClassFrom_of_head h.lower, readRange_range h.lower h.upper h.ordered]
      rfl

theorem head_rangeTextOf (h : ReadsEnds char literal r) :
    ∃ c cs, rangeTextOf char r = c :: cs ∧ c ∉ ['[', ']', '-', '^', '&', '~'] := by
  obtain ⟨c, cs, hlower, hc⟩ := h.lower.head
  unfold rangeTextOf
  split_ifs
  · exact ⟨c, cs, hlower, hc⟩
  · exact ⟨c, cs ++ char r.2, by rw [hlower, List.cons_append], hc⟩
  · exact ⟨c, cs ++ '-' :: char r.2, by rw [hlower, List.cons_append], hc⟩

/-- Ranges up to the closing bracket are read as their parts. -/
theorem readClassFrom_ranges (h : ∀ r ∈ rs, ReadsEnds char literal r)
    (hsteps : (rs.flatMap (rangeTextOf char) ++ ']' :: rest).length < steps) :
    readClassFrom false steps items [.opened [] false]
        (rs.flatMap (rangeTextOf char) ++ ']' :: rest) =
      .ok (.bracketed false
        (.item (.ofReversed ((rs.flatMap (rangeItems literal)).reverse ++ items))), rest) := by
  induction rs generalizing steps items with
  | nil =>
    obtain ⟨steps, rfl⟩ : ∃ n, steps = n + 1 := ⟨steps - 1, by omega⟩
    rfl
  | cons r rs ih =>
    rw [List.forall_mem_cons] at h
    rw [List.flatMap_cons, List.append_assoc] at hsteps ⊢
    -- what follows the first range does not start with a hyphen
    obtain ⟨c, cs, hnext, hc⟩ : ∃ c cs, rs.flatMap (rangeTextOf char) ++ ']' :: rest = c :: cs ∧
        c ≠ '-' := by
      cases rs with
      | nil => exact ⟨']', rest, rfl, by decide⟩
      | cons r' rs =>
        obtain ⟨c, cs, htext, hc⟩ := head_rangeTextOf (h.2 r' List.mem_cons_self)
        refine ⟨c, _, by rw [List.flatMap_cons, htext]; rfl, ?_⟩
        rintro rfl
        exact hc (by decide)
    rw [hnext] at hsteps
    obtain ⟨left, hleft, hread⟩ :=
      readClassFrom_range items [.opened [] false] h.1 hc hsteps
    rw [← hnext] at hleft hread
    rw [hread, ih h.2 hleft, List.flatMap_cons, List.reverse_append, List.append_assoc]

/-- The class that is read for printed ranges. -/
def rangesClass (literal : Nat → Literal) (rs : List (Nat × Nat)) : Pattern :=
  .bracketed false (.item (.ofReversed (rs.flatMap (rangeItems literal)).reverse))

/-- A class that was printed is read as the parts of its ranges. -/
theorem readClass_ranges (hne : rs ≠ []) (h : ∀ r ∈ rs, ReadsEnds char literal r) :
    readClass false (rs.flatMap (rangeTextOf char) ++ ']' :: rest) =
      .ok (rangesClass literal rs, rest) := by
  obtain ⟨r, rs', rfl⟩ := List.exists_cons_of_ne_nil hne
  obtain ⟨c, cs, htext, hc⟩ := head_rangeTextOf (h r List.mem_cons_self)
  have hopening : readOpening false ((r :: rs').flatMap (rangeTextOf char) ++ ']' :: rest) =
      .ok (false, [], (r :: rs').flatMap (rangeTextOf char) ++ ']' :: rest) := by
    rw [List.flatMap_cons, htext, List.cons_append, List.cons_append]
    simp only [List.mem_cons, List.not_mem_nil, or_false, not_or] at hc
    simp [readOpening, skip, hc, takeHyphens]
  rw [readClass, hopening]
  refine (readClassFrom_ranges h (Nat.lt_succ_self _)).trans ?_
  rw [List.append_nil, rangesClass]

/-- A class is read in one step. -/
theorem leads_class {pat : Pattern} (hspace : p.ignoreSpace = false) (hnames : pat.names = 0)
    (h : readClass false (text ++ rest) = .ok (pat, rest)) :
    Leads p ('[' :: text) rest (p.Gains pat) := by
  refine .step hspace (List.cons_ne_nil _ _) ?_ (gains_push hspace hnames)
  rw [List.cons_append, readStep, hspace, h]
  rfl

theorem leads_ranges (hspace : p.ignoreSpace = false) (hne : rs ≠ [])
    (h : ∀ r ∈ rs, ReadsEnds char literal r) :
    Leads p ('[' :: (rs.flatMap (rangeTextOf char) ++ [']'])) rest
      (p.Gains (rangesClass literal rs)) := by
  refine leads_class hspace rfl ?_
  rw [List.append_assoc]
  exact readClass_ranges hne h

/-- The class that is read for the empty set. -/
def noneClass : Pattern :=
  .bracketed false
    (.op .intersection (.item (.literal ⟨'a', false⟩)) (.item (.literal ⟨'b', false⟩)))

theorem readClass_none (rest : List Char) :
    readClass false ("a&&b]".toList ++ rest) = .ok (noneClass, rest) := rfl

end

/-! ## Conditions -/

/-- How an assertion is written. -/
def Assertion.written : Assertion → String
  | .lineStart => "^"
  | .lineEnd => "$"
  | .textStart => "\\A"
  | .textEnd => "\\z"
  | .wordBoundary => "\\b"
  | .notWordBoundary => "\\B"
  | .wordStart => "\\b\x7bstart\x7d"
  | .wordEnd => "\\b\x7bend\x7d"
  | .wordStartHalf => "\\b\x7bstart-half\x7d"
  | .wordEndHalf => "\\b\x7bend-half\x7d"

/-- After an opening brace stands a digit, as in an operator with counts. -/
def BraceCounts (rest : List Char) : Prop :=
  ∀ cs, rest = '\x7b' :: cs → ∃ c cs', cs = c :: cs' ∧ c.isDigit = true

theorem isBoundaryChar_of_isDigit {c : Char} (h : c.isDigit = true) :
    isBoundaryChar c = false := by
  have hc := (le_toNat_of_isDigit h).2
  have halpha : c.isAlpha = false := by
    refine Bool.eq_false_iff.2 fun halpha => ?_
    rcases Bool.or_eq_true_iff.1 halpha with hupper | hlower
    · have hcode : 65 ≤ c.toNat := (of_decide_eq_true hupper).1
      omega
    · have hcode : 97 ≤ c.toNat := of_decide_eq_true (Bool.and_eq_true_iff.1 hlower).1
      omega
  have hhyphen : c ≠ '-' := by
    rintro rfl
    exact absurd h (by decide)
  simp [isBoundaryChar, halpha, hhyphen]

theorem readBoundary_eq (h : BraceCounts rest) :
    readBoundary false rest = .ok (.wordBoundary, rest) := by
  unfold readBoundary
  split
  · next cs =>
    obtain ⟨c, cs', rfl, hc⟩ := h cs rfl
    simp [skip, isBoundaryChar_of_isDigit hc]
  · rfl

theorem readStep_assertion (hspace : p.ignoreSpace = false) (a : Assertion) (h : BraceCounts rest) :
    readStep p (a.written.toList ++ rest) = .ok (p.push (.assertion a), rest) := by
  obtain ⟨parts, branches, frames, ignoreSpace, captures, names⟩ := p
  cases hspace
  cases a with
  | wordBoundary =>
    have hescape : readEscape false ('b' :: rest) = .ok (.assertion .wordBoundary, rest) := by
      simp [readEscape, readBoundary_eq h]
    show (readEscape false ('b' :: rest) >>= fun x =>
      pure (Progress.push ⟨parts, branches, frames, false, captures, names⟩ x.1.toPattern,
        x.2)) = _
    rw [hescape]
    rfl
  | _ => rfl

theorem leads_assertion (hspace : p.ignoreSpace = false) (a : Assertion) (h : BraceCounts rest) :
    Leads p a.written.toList rest (p.Gains (.assertion a)) := by
  have hne : a.written.toList ≠ [] := by cases a <;> simp [Assertion.written]
  exact .step hspace hne (readStep_assertion hspace a h) (gains_push hspace rfl)

end TestSelection.Regex
