import TestSelection.Proofs.Regex.Depth
import TestSelection.Regex

/-!
# Printed expressions

**Theorem (`agrees_settled`).** What is printed for a well-formed expression, read again, matches
what the expression matches, but for options that are lost (`Expr.settled`).

**Theorem (`reread_of_le`, `reread_of_lt`).** It can be read again exactly if it does not nest too
deeply. How deeply it nests is told by the expression (`Expr.printedDepth`).

The proof is by induction on the expression. What is printed for it is read as one part that stands
for the settled expression, whatever was read before, as long as the names of its groups are new
(`Progress.Admits`), and whatever follows, as long as it does not reach into it (`Expr.Precedes`).
If the printed form ends with an open operator, this is also said for the form with a question mark
behind it (`Expr.Prints`).
-/

namespace TestSelection.Regex

open Unicode (CodeSet)

namespace Expr

/-! ## What may follow -/

/-- The text starts with neither a question mark nor a brace. -/
def Clear (rest : List Char) : Prop := ∃ c cs, rest = c :: cs ∧ c ≠ '?' ∧ c ≠ '\x7b'

/-- The text can follow the printed expression: it does not change how it is read. -/
structure Precedes (x : Expr) (rest : List Char) : Prop where
  unasked : x.endsOpen = true → rest.head? ≠ some '?'
  counts : BraceCounts rest

variable {x : Expr} {xs : List Expr} {rest : List Char} {p q : Progress}

theorem Clear.precedes (h : Clear rest) : x.Precedes rest := by
  obtain ⟨c, cs, rfl, hquestion, hbrace⟩ := h
  refine ⟨fun _ heq => hquestion (Option.some.inj heq), fun cs' heq => ?_⟩
  exact absurd (List.cons.inj heq).1 hbrace

theorem precedes_nil : x.Precedes [] := ⟨fun _ => by simp, fun cs h => by simp at h⟩

theorem clear_plainChar (c : Char) (rest : List Char) : Clear (plainChar c ++ rest) := by
  unfold plainChar
  split_ifs with hc
  · exact ⟨'\\', c :: rest, rfl, by decide, by decide⟩
  · refine ⟨c, rest, rfl, ?_, ?_⟩
    all_goals
      rintro rfl
      exact hc (by decide)

theorem clear_print (h : x.Sound) (rest : List Char) : Clear (x.print ++ rest) := by
  induction x generalizing rest with
  | empty => exact ⟨'(', _, rfl, by decide, by decide⟩
  | text chars =>
    cases h with
    | text hne =>
      obtain ⟨c, cs, rfl⟩ := List.exists_cons_of_ne_nil hne
      by_cases hmany : 1 < (c :: cs).length
      · simp only [print, if_pos hmany]
        exact ⟨'(', _, rfl, by decide, by decide⟩
      · simp only [print, if_neg hmany]
        rw [List.flatMap_cons, List.append_assoc]
        exact clear_plainChar c _
  | set unicode s =>
    rw [print]
    split_ifs
    all_goals exact ⟨_, _, rfl, by decide, by decide⟩
  | look l =>
    cases l with
    | textStart | textEnd | lineStart | lineEnd | lineStartCRLF | lineEndCRLF =>
      exact ⟨_, _, rfl, by decide, by decide⟩
    | _ unicode => cases unicode <;> exact ⟨_, _, rfl, by decide, by decide⟩
  | repetition least greatest greedy sub ih =>
    cases h with
    | repetition _ hsub =>
      rw [print, List.append_assoc]
      exact ih hsub _
  | capture index name sub ih =>
    cases name <;> exact ⟨'(', _, rfl, by decide, by decide⟩
  | concat parts ih => exact ⟨'(', _, rfl, by decide, by decide⟩
  | alternation branches ih => cases branches <;> exact ⟨'(', _, rfl, by decide, by decide⟩

theorem clear_close (rest : List Char) : Clear (')' :: rest) :=
  ⟨')', rest, rfl, by decide, by decide⟩

theorem clear_printParts (h : ∀ x ∈ xs, x.Sound) (hrest : Clear rest) :
    Clear (printParts xs ++ rest) := by
  cases xs with
  | nil => exact hrest
  | cons x xs =>
    rw [printParts, List.append_assoc]
    exact clear_print (h x List.mem_cons_self) _

theorem clear_printBranches (hrest : Clear rest) : Clear (printBranches xs ++ rest) := by
  cases xs with
  | nil => exact hrest
  | cons x xs => exact ⟨'|', _, rfl, by decide, by decide⟩

end Expr

/-! ## Single parts -/

/-- The pattern can be repeated, and is what is read for the printed expression. -/
structure Pattern.StandsFor (pat : Pattern) (x : Expr) : Prop where
  repeatable : pat.Repeatable
  denotes : pat.Denotes .initial x
  names : pat.names = x.names
  depth : pat.depth = x.patternDepth

/-- One part was read, which stands for an expression. -/
def Progress.GainsFor (p : Progress) (x : Expr) (q : Progress) : Prop :=
  ∃ pat, pat.StandsFor x ∧ p.Gains pat q

variable {p q : Progress} {x : Expr} {xs : List Expr} {rest : List Char}

theorem level_of_gains {kind : GroupKind} {pat : Pattern} {q' : Progress} (h : p.Enters kind q)
    (h' : q.Gains pat q') : q'.level = pat := by
  simp only [Progress.level, h'.branches, h.branches, h'.parts, h.parts]
  rfl

/-- The first part that is read in a group is the level in hand. -/
theorem fills_of_gains {kind : GroupKind} {pat : Pattern} {q' : Progress} {level : Pattern → Prop}
    (h : p.Enters kind q) (h' : q.Gains pat q') (hlevel : level pat) : q.Fills level q' := by
  have hpat := level_of_gains h h'
  exact ⟨h'.frames, h'.ignoreSpace, hpat.symm ▸ hlevel, hpat.symm ▸ h'.names⟩

/-- The pattern is the body of a group with flags that stands for the expression. -/
structure Pattern.BodyOf (flags : Flags) (x : Expr) (pat : Pattern) : Prop where
  denotes : pat.Denotes flags x
  names : pat.names = x.names
  depth : pat.depth + 1 = x.patternDepth

/-- A group with flags stands for what its body denotes under them. -/
theorem leads_opened {opening body : List Char} {items : List FlagItem} (h : Opens opening items)
    (hspace : p.ignoreSpace = false)
    (hbody : ∀ q, p.Enters (.flags items) q →
      Leads q body (')' :: rest) (q.Fills (Pattern.BodyOf (Flags.initial.update items) x))) :
    Leads p (opening ++ body ++ [')']) rest (p.GainsFor x) := by
  have hq := enters_enter_flags hspace h.keepsSpace
  refine (leads_group hspace h.ne_nil (h.read p _ hspace) hq (hbody _ hq)).imp ?_
  rintro q ⟨sub, hsub, hq⟩
  refine ⟨_, ⟨⟨by simp, by simp⟩, hsub.denotes.group, ?_, ?_⟩, hq⟩
  · rw [Pattern.names, GroupKind.names, zero_add, hsub.names]
  · rw [Pattern.depth, hsub.depth]

theorem leads_literal (hspace : p.ignoreSpace = false) (c : Char) (rest : List Char) :
    Leads p (plainChar c) rest (p.GainsFor (.text [c])) :=
  (leads_plainChar hspace c rest).imp fun _ hq =>
    ⟨_, ⟨⟨by simp, by simp⟩, .literal rfl rfl, rfl, rfl⟩, hq⟩

/-! ### Conditions -/

theorem leads_look_plain (hspace : p.ignoreSpace = false) (a : Assertion) (h : BraceCounts rest) :
    Leads p a.written.toList rest (p.GainsFor (.look (Flags.initial.look a))) :=
  (leads_assertion hspace a h).imp fun _ hq =>
    ⟨_, ⟨⟨by simp, by simp⟩, .assertion, rfl, by cases a <;> rfl⟩, hq⟩

theorem leads_look_opened {opening : List Char} {items : List FlagItem} (h : Opens opening items)
    (hspace : p.ignoreSpace = false) (a : Assertion)
    (hdepth : Expr.lookDepth ((Flags.initial.update items).look a) = 1) :
    Leads p (opening ++ a.written.toList ++ [')']) rest
      (p.GainsFor (.look ((Flags.initial.update items).look a))) := by
  refine leads_opened h hspace fun q hq => ?_
  have hcounts : BraceCounts (')' :: rest) := fun cs heq => by simp at heq
  refine (leads_assertion hq.ignoreSpace a hcounts).imp fun q' hq' => fills_of_gains hq hq' ?_
  exact ⟨.assertion, rfl, hdepth.symm⟩

theorem leads_look (hspace : p.ignoreSpace = false) (l : Look) (h : BraceCounts rest) :
    Leads p l.text.toList rest (p.GainsFor (.look l)) := by
  have hascii (a : Assertion)
      (hdepth : Expr.lookDepth ((Flags.initial.update [.negation, .flag .unicode]).look a) = 1) :
      Leads p (asciiText false a.written).toList rest
        (p.GainsFor (.look ((Flags.initial.update [.negation, .flag .unicode]).look a))) := by
    rw [asciiText, if_neg Bool.false_ne_true, String.toList_append, String.toList_append]
    exact leads_look_opened opens_ascii hspace a hdepth
  cases l with
  | textStart => exact leads_look_plain hspace .textStart h
  | textEnd => exact leads_look_plain hspace .textEnd h
  | lineStart => exact leads_look_opened opens_multiLine hspace .lineStart rfl
  | lineEnd => exact leads_look_opened opens_multiLine hspace .lineEnd rfl
  | lineStartCRLF => exact leads_look_opened opens_multiLineCRLF hspace .lineStart rfl
  | lineEndCRLF => exact leads_look_opened opens_multiLineCRLF hspace .lineEnd rfl
  | wordBoundary unicode =>
    cases unicode with
    | false => exact hascii .wordBoundary rfl
    | true => exact leads_look_plain hspace .wordBoundary h
  | notWordBoundary unicode =>
    cases unicode with
    | false => exact hascii .notWordBoundary rfl
    | true => exact leads_look_plain hspace .notWordBoundary h
  | wordStart unicode =>
    cases unicode with
    | false => exact hascii .wordStart rfl
    | true => exact leads_look_plain hspace .wordStart h
  | wordEnd unicode =>
    cases unicode with
    | false => exact hascii .wordEnd rfl
    | true => exact leads_look_plain hspace .wordEnd h
  | wordStartHalf unicode =>
    cases unicode with
    | false => exact hascii .wordStartHalf rfl
    | true => exact leads_look_plain hspace .wordStartHalf h
  | wordEndHalf unicode =>
    cases unicode with
    | false => exact hascii .wordEndHalf rfl
    | true => exact leads_look_plain hspace .wordEndHalf h

/-! ### Classes -/

theorem ofNat_le_ofNat {m n : Nat} (hm : m.isValidChar) (hn : n.isValidChar) (h : m ≤ n) :
    Char.ofNat m ≤ Char.ofNat n := by
  rw [Char.le_def, UInt32.le_iff_toNat_le]
  show (Char.ofNat m).toNat ≤ (Char.ofNat n).toNat
  rwa [Unicode.toNat_ofNat hm, Unicode.toNat_ofNat hn]

theorem leads_set_chars (hspace : p.ignoreSpace = false) {s : CodeSet} (hs : s.Tidy)
    (hne : s.ranges ≠ []) :
    Leads p ('[' :: s.ranges.flatMap rangeText ++ [']']) rest (p.GainsFor (.set true s)) := by
  have hends : ∀ r ∈ s.ranges, ReadsEnds (fun n => plainChar (Char.ofNat n))
      (fun n => ⟨Char.ofNat n, false⟩) r := by
    intro r hr
    obtain ⟨hlower, hupper⟩ := hs.bounded r hr
    exact ⟨readsAs_plainChar _, readsAs_plainChar _,
      ofNat_le_ofNat hlower hupper (hs.ascend.proper r hr)⟩
  have hnames : ∀ r ∈ s.ranges, NamesEnds .initial (fun n => ⟨Char.ofNat n, false⟩) r :=
    fun r hr => namesEnds_chars rfl (hs.bounded r hr)
  rw [rangeText_eq]
  exact (leads_ranges hspace hne hends).imp fun q hq =>
    ⟨_, ⟨⟨by simp [rangesClass], by simp [rangesClass]⟩,
      .class hs hne Bool.noConfusion rfl hnames, rfl, depth_rangesClass _ hne⟩, hq⟩

theorem leads_set_bytes (hspace : p.ignoreSpace = false) {s : CodeSet} (hs : s.Tidy)
    (hne : s.ranges ≠ []) (hascii : s.isAscii = true) :
    Leads p ("(?-u:[".toList ++ s.ranges.flatMap byteRangeText ++ "])".toList) rest
      (p.GainsFor (.set false s)) := by
  have hsmall : ∀ r ∈ s.ranges, r.1 < 0x80 ∧ r.2 < 0x80 := by
    intro r hr
    have hproper := hs.ascend.proper r hr
    have hupper := CodeSet.isAscii_iff.1 hascii r hr
    omega
  have hends : ∀ r ∈ s.ranges, ReadsEnds byteChar byteLiteral r := by
    intro r hr
    obtain ⟨hlower, hupper⟩ := hsmall r hr
    exact ⟨readsAs_byteChar hlower, readsAs_byteChar hupper,
      ofNat_le_ofNat (.inl (by omega)) (.inl (by omega)) (hs.ascend.proper r hr)⟩
  have hnames : ∀ r ∈ s.ranges,
      NamesEnds (Flags.initial.update [.negation, .flag .unicode]) byteLiteral r :=
    fun r hr => namesEnds_bytes rfl (hsmall r hr).1 (hsmall r hr).2
  have htext : "(?-u:[".toList ++ s.ranges.flatMap byteRangeText ++ "])".toList =
      "(?-u:".toList ++ '[' :: (s.ranges.flatMap byteRangeText ++ [']']) ++ [')'] := by
    simp
  rw [htext, byteRangeText_eq]
  refine leads_opened opens_ascii hspace fun q hq => ?_
  refine (leads_ranges hq.ignoreSpace hne hends).imp fun q' hq' => fills_of_gains hq hq' ?_
  refine ⟨.class hs hne (fun _ => hascii) rfl hnames, rfl, ?_⟩
  rw [depth_rangesClass _ hne, Expr.patternDepth, if_neg (by simp [hne])]

theorem leads_set_none (hspace : p.ignoreSpace = false) {unicode : Bool} {s : CodeSet}
    (hs : s.ranges = []) :
    Leads p "[a&&b]".toList rest (p.GainsFor (.set unicode s)) := by
  refine (leads_class hspace rfl (readClass_none rest)).imp fun q hq => ?_
  refine ⟨_, ⟨⟨by simp [noneClass], by simp [noneClass]⟩, .none hs, rfl, ?_⟩, hq⟩
  rw [Expr.patternDepth, if_pos (by simp [hs]), Expr.classDepth, hs]
  rfl

/-! ## Composite expressions -/

/-- The reader can go on with groups of these names: they are new, and distinct. White space is not
ignored. -/
structure Progress.Admits (p : Progress) (names : Multiset String) : Prop where
  ignoreSpace : p.ignoreSpace = false
  nodup : (names + p.names).Nodup

theorem Progress.Admits.left {names names' : Multiset String} (h : p.Admits (names + names')) :
    p.Admits names where
  ignoreSpace := h.ignoreSpace
  nodup := by
    refine Multiset.nodup_of_le ?_ h.nodup
    gcongr
    exact Multiset.le_add_right _ _

/-- After an expression, the reader can go on with the names that are left. -/
theorem Progress.Admits.after {names : Multiset String} (h : p.Admits (x.names + names))
    (hq : p.GainsFor x.settled q) : q.Admits names := by
  obtain ⟨pat, hpat, hq⟩ := hq
  refine ⟨hq.ignoreSpace, ?_⟩
  rw [hq.names, hpat.names, Expr.names_settled, add_left_comm, ← add_assoc]
  exact h.nodup

/-- Inside a group, the reader can go on with the names in it. -/
theorem Progress.Admits.inside {kind : GroupKind} {names : Multiset String}
    (h : p.Admits (kind.names + names)) (hq : p.Enters kind q) : q.Admits names where
  ignoreSpace := hq.ignoreSpace
  nodup := by
    rw [hq.names, add_left_comm, ← add_assoc]
    exact h.nodup

theorem Progress.Admits.inside_flags {items : List FlagItem} {names : Multiset String}
    (h : p.Admits names) (hq : p.Enters (.flags items) q) : q.Admits names := by
  have hnames : (GroupKind.flags items).names + names = names := zero_add names
  rw [← hnames] at h
  exact h.inside hq

/-- The printed expression is read as a part that stands for it, but for lost options; so it is with
a question mark behind it that belongs to its last operator. -/
structure Expr.Prints (x : Expr) : Prop where
  read : ∀ p rest, p.Admits x.names → x.Precedes rest →
    Leads p x.print rest (p.GainsFor x.settled)
  readMarked : x.endsOpen = true → ∀ p rest, p.Admits x.names →
    Leads p (x.print ++ ['?']) rest (p.GainsFor x.settled)

theorem Expr.Prints.of_closed (hclosed : x.endsOpen = false)
    (h : ∀ p rest, p.Admits x.names → Leads p x.print rest (p.GainsFor x.settled)) :
    x.Prints where
  read p rest hp _ := h p rest hp
  readMarked hopen := by rw [hclosed] at hopen; cases hopen

theorem operatorText_once (greedy : Bool) : operatorText 1 (some 1) greedy = [] := rfl

theorem greedMark_true : greedMark true = [] := rfl

/-- An operator can follow what it repeats, unless its question mark does not belong to it. -/
theorem precedes_operatorCore {least : Nat} {greatest : Option Nat} {mark : List Char}
    (h : least = 0 ∧ greatest = some 1 → x.endsOpen = false) :
    x.Precedes (operatorCore least greatest ++ mark ++ rest) := by
  rw [List.append_assoc]
  rcases operatorCore_cases least greatest with ⟨c, hc, htext⟩ | htext
  · rw [htext]
    refine ⟨fun hopen hhead => ?_, fun cs hcs => absurd (List.cons.inj hcs).1 hc.ne_brace⟩
    rw [h (hc.option (Option.some.inj hhead))] at hopen
    cases hopen
  · rw [htext]
    refine ⟨fun _ => by simp, fun cs hcs => ?_⟩
    obtain ⟨c, cs', hbounds, hc⟩ := exists_cons_boundsText least greatest
    rw [List.append_assoc, List.cons_append, hbounds] at hcs
    rw [← (List.cons.inj hcs).2]
    exact ⟨c, _, rfl, hc⟩

/-- An operator is read behind a part that stands for an expression. -/
theorem leads_operator_of_gainsFor {least : Nat} {greatest : Option Nat} (greedy greedy' : Bool)
    (honce : ¬ (least = 1 ∧ greatest = some 1)) (hbounds : Bounds least greatest)
    (hq : p.GainsFor x q) (hrest : greedy = true → rest.head? ≠ some '?') :
    Leads q (operatorCore least greatest ++ greedMark greedy) rest
      (p.GainsFor (.repetition least greatest greedy' x)) := by
  obtain ⟨pat, hpat, hq⟩ := hq
  refine (leads_operator hq hpat.repeatable hbounds hrest).imp fun q' hq' => ?_
  refine ⟨_, ⟨⟨by simp, by simp⟩, hpat.denotes.repetition hbounds, ?_, ?_⟩, hq'⟩
  · rw [Pattern.names, hpat.names, Expr.names]
  · rw [Pattern.depth, hpat.depth, Expr.patternDepth, if_neg honce]

theorem prints_repetition_once {greedy : Bool} (hx : x.Prints) :
    (Expr.repetition 1 (some 1) greedy x).Prints := by
  have hprint : (Expr.repetition 1 (some 1) greedy x).print = x.print := by
    rw [Expr.print, operatorText_once, List.append_nil]
  have hsettled : (Expr.repetition 1 (some 1) greedy x).settled =
      .repetition 1 (some 1) greedy x.settled := rfl
  have hgains {p q : Progress} (h : p.GainsFor x.settled q) :
      p.GainsFor (.repetition 1 (some 1) greedy x.settled) q := by
    obtain ⟨pat, hpat, hq⟩ := h
    refine ⟨pat, ⟨hpat.repeatable, hpat.denotes.congr fun input i j _ =>
      Expr.matches_repetition_once.symm, ?_, ?_⟩, hq⟩
    · rw [hpat.names, Expr.names]
    · rw [hpat.depth, Expr.patternDepth, if_pos ⟨rfl, rfl⟩]
  constructor
  · intro p rest hp hrest
    rw [hprint, hsettled]
    exact (hx.read p rest hp ⟨hrest.unasked, hrest.counts⟩).imp fun q => hgains
  · intro hopen p rest hp
    rw [hprint, hsettled]
    exact (hx.readMarked hopen p rest hp).imp fun q => hgains

/-- An option behind an operator that takes its question mark. -/
theorem prints_option_of_open {greedy : Bool} (hbounds : Bounds 0 (some 1)) (hx : x.Prints)
    (hopen : x.endsOpen = true) :
    (Expr.repetition 0 (some 1) greedy x).Prints := by
  have hprint : (Expr.repetition 0 (some 1) greedy x).print =
      x.print ++ ['?'] ++ greedMark greedy := by
    rw [Expr.print]
    cases greedy <;> simp [operatorText, greedMark]
  cases greedy with
  | true =>
    have hsettled : (Expr.repetition 0 (some 1) true x).settled = x.settled := by
      simp [Expr.settled, hopen]
    refine .of_closed (by simp [Expr.endsOpen_option, hopen]) fun p rest hp => ?_
    rw [hprint, hsettled, greedMark_true, List.append_nil]
    exact hx.readMarked hopen p rest hp
  | false =>
    have hsettled : (Expr.repetition 0 (some 1) false x).settled =
        .repetition 0 (some 1) false x.settled := by
      simp [Expr.settled]
    have honce : ¬ (0 = 1 ∧ some 1 = some 1) := by simp
    constructor
    · intro p rest hp hrest
      have hunasked : rest.head? ≠ some '?' :=
        hrest.unasked (by simp [Expr.endsOpen_option, hopen])
      rw [hprint, hsettled]
      refine (hx.readMarked hopen p _ hp).trans fun q hq => ?_
      show Leads q (operatorCore 0 (some 1) ++ greedMark true) rest _
      exact leads_operator_of_gainsFor true false honce hbounds hq fun _ => hunasked
    · intro _ p rest hp
      rw [hprint, hsettled, List.append_assoc]
      refine (hx.readMarked hopen p _ hp).trans fun q hq => ?_
      show Leads q (operatorCore 0 (some 1) ++ greedMark false) rest _
      exact leads_operator_of_gainsFor false false honce hbounds hq Bool.noConfusion

theorem prints_repetition {least : Nat} {greatest : Option Nat} {greedy : Bool}
    (hbounds : Bounds least greatest) (hx : x.Prints) :
    (Expr.repetition least greatest greedy x).Prints := by
  by_cases honce : least = 1 ∧ greatest = some 1
  · obtain ⟨rfl, rfl⟩ := honce
    exact prints_repetition_once hx
  by_cases hlost : (least = 0 ∧ greatest = some 1) ∧ x.endsOpen = true
  · obtain ⟨⟨rfl, rfl⟩, hopen⟩ := hlost
    exact prints_option_of_open hbounds hx hopen
  have hown : least = 0 ∧ greatest = some 1 → x.endsOpen = false :=
    fun hoption => Bool.eq_false_iff.2 fun hopen => hlost ⟨hoption, hopen⟩
  have hprint : (Expr.repetition least greatest greedy x).print =
      x.print ++ (operatorCore least greatest ++
        greedMark (Expr.repetition least greatest greedy x).endsOpen) := by
    rw [Expr.print, operatorText_eq honce, Expr.endsOpen_repetition honce hown]
  have hsettled : (Expr.repetition least greatest greedy x).settled =
      .repetition least greatest greedy x.settled := by
    rw [Expr.settled, if_neg]
    rintro ⟨hzero, hone, -, hopen⟩
    exact hlost ⟨⟨hzero, hone⟩, hopen⟩
  constructor
  · intro p rest hp hrest
    rw [hprint, hsettled]
    refine (hx.read p _ hp (precedes_operatorCore hown)).trans fun q hq => ?_
    exact leads_operator_of_gainsFor _ _ honce hbounds hq hrest.unasked
  · intro hopen p rest hp
    rw [hprint, hsettled, hopen, greedMark_true, List.append_nil, List.append_assoc]
    refine (hx.read p _ hp (precedes_operatorCore hown)).trans fun q hq => ?_
    exact leads_operator_of_gainsFor false _ honce hbounds hq Bool.noConfusion

theorem prints_capture {index : Nat} {name : Option String} (hname : ∀ n ∈ name, IsGroupName n)
    (hsound : x.Sound) (hx : x.Prints) : (Expr.capture index name x).Prints := by
  refine .of_closed rfl fun p rest hp => ?_
  have hsettled : (Expr.capture index name x).settled = .capture index name x.settled := rfl
  rw [hsettled]
  have hcapture (opening : List Char) {q : Progress} {index' : Nat} (hne : opening ≠ [])
      (hopen : readStep p (opening ++ (x.print ++ ')' :: rest)) = .ok (q, x.print ++ ')' :: rest))
      (hq : p.Enters (.capture index' name) q) :
      Leads p (opening ++ x.print ++ [')']) rest (p.GainsFor (.capture index name x.settled)) := by
    have hbody : Leads q x.print (')' :: rest) (q.Fills (·.StandsFor x.settled)) := by
      refine (hx.read q _ (Progress.Admits.inside hp hq) (Expr.clear_close rest).precedes).imp ?_
      rintro q' ⟨pat, hpat, hq'⟩
      exact fills_of_gains hq hq' hpat
    refine (leads_group hp.ignoreSpace hne hopen hq hbody).imp ?_
    rintro q' ⟨sub, hsub, hq'⟩
    refine ⟨_, ⟨⟨by simp, by simp⟩, hsub.denotes.capture hname, ?_, ?_⟩, hq'⟩
    · rw [Pattern.names, GroupKind.names, hsub.names, Expr.names]
    · rw [Pattern.depth, hsub.depth, Expr.patternDepth]
  cases name with
  | none =>
    obtain ⟨c, cs, hprint, hc, -⟩ := Expr.clear_print hsound (')' :: rest)
    have hhead : (x.print ++ ')' :: rest).head? ≠ some '?' := by simp [hprint, hc]
    obtain ⟨q, hopen, hq⟩ := readStep_unnamed hp.ignoreSpace hhead
    exact hcapture ['('] (List.cons_ne_nil _ _) hopen hq
  | some name =>
    have htext : (Expr.capture index (some name) x).print =
        ("(?P<".toList ++ name.toList ++ ['>']) ++ x.print ++ [')'] := by
      simp [Expr.print]
    have hnew : name ∉ p.names := by
      have hnodup := hp.nodup
      rw [Expr.names, Option.toList_some, Multiset.coe_singleton, add_assoc,
        Multiset.singleton_add, Multiset.nodup_cons] at hnodup
      exact fun hmem => hnodup.1 (Multiset.mem_add.2 (.inr (Multiset.mem_coe.2 hmem)))
    obtain ⟨q, hopen, hq⟩ := readStep_named hp.ignoreSpace (hname name rfl) hnew
      (x.print ++ ')' :: rest)
    rw [htext]
    refine hcapture _ (by simp) ?_ hq
    rw [List.append_assoc _ ['>'], List.singleton_append]
    exact hopen

/-! ### Sequences -/

theorem names_of_standsFor {pats : List Pattern} (h : List.Forall₂ Pattern.StandsFor pats xs) :
    (pats.map Pattern.names).sum = (xs.map Expr.names).sum := by
  induction h with
  | nil => rfl
  | cons hx _ ih => rw [List.map_cons, List.sum_cons, List.map_cons, List.sum_cons, hx.names, ih]

theorem depths_of_standsFor {pats : List Pattern} (h : List.Forall₂ Pattern.StandsFor pats xs) :
    pats.map Pattern.depth = xs.map Expr.patternDepth := by
  induction h with
  | nil => rfl
  | cons hx _ ih => rw [List.map_cons, List.map_cons, hx.depth, ih]

theorem denotes_of_standsFor {pats : List Pattern} (h : List.Forall₂ Pattern.StandsFor pats xs) :
    List.Forall₂ (Pattern.Denotes .initial) pats xs := h.imp fun _ _ => Pattern.StandsFor.denotes

/-- Parts were read one after the other at the same level. -/
structure Progress.GainsAll (p : Progress) (pats : List Pattern) (q : Progress) : Prop where
  parts : q.parts = pats.reverse ++ p.parts
  branches : q.branches = p.branches
  frames : q.frames = p.frames
  ignoreSpace : q.ignoreSpace = false
  names : (q.names : Multiset String) = (pats.map Pattern.names).sum + p.names

theorem leads_parts (h : ∀ x ∈ xs, x.Sound ∧ x.Prints) (hp : p.Admits (xs.map Expr.names).sum)
    (hrest : Expr.Clear rest) :
    Leads p (Expr.printParts xs) rest fun q =>
      ∃ pats, List.Forall₂ Pattern.StandsFor pats (xs.map Expr.settled) ∧ p.GainsAll pats q := by
  induction xs generalizing p with
  | nil => exact .refl ⟨[], .nil, rfl, rfl, rfl, hp.ignoreSpace, (zero_add _).symm⟩
  | cons x xs ih =>
    rw [List.forall_mem_cons] at h
    obtain ⟨⟨-, hx⟩, hxs⟩ := h
    have hnext : Expr.Clear (Expr.printParts xs ++ rest) :=
      Expr.clear_printParts (fun y hy => (hxs y hy).1) hrest
    rw [List.map_cons, List.sum_cons] at hp
    refine (hx.read p _ hp.left hnext.precedes).trans fun q hq => ?_
    refine (ih hxs (hp.after hq)).imp ?_
    obtain ⟨pat, hpat, hq⟩ := hq
    rintro q' ⟨pats, hpats, hq'⟩
    refine ⟨pat :: pats, .cons hpat hpats, ?_, hq'.branches.trans hq.branches,
      hq'.frames.trans hq.frames, hq'.ignoreSpace, ?_⟩
    · rw [hq'.parts, hq.parts, List.reverse_cons, List.append_assoc, List.singleton_append]
    · rw [hq'.names, hq.names, List.map_cons, List.sum_cons, add_left_comm, add_assoc]

/-- A group of parts stands for what their concatenation matches. -/
theorem leads_parts_group (h : ∀ x ∈ xs, x.Sound ∧ x.Prints) (hp : p.Admits x.names)
    (hagrees : (Expr.concat (xs.map Expr.settled)).Agrees x.settled)
    (hnames : x.names = (xs.map Expr.names).sum)
    (hdepth : x.printedDepth = Expr.joinedDepth (xs.map Expr.printedDepth) + 1) :
    Leads p (groupText (Expr.printParts xs)) rest (p.GainsFor x.settled) := by
  refine leads_opened opens_plain hp.ignoreSpace fun q hq => ?_
  rw [hnames] at hp
  refine (leads_parts h (hp.inside_flags hq) (Expr.clear_close rest)).imp ?_
  rintro q' ⟨pats, hpats, hq'⟩
  have hlevel : q'.level = .ofParts pats.reverse := by
    simp only [Progress.level, hq'.branches, hq.branches, hq'.parts, hq.parts, List.append_nil]
  have hlevelNames : (Pattern.ofParts pats.reverse).names = (pats.map Pattern.names).sum := by
    rw [Pattern.names_ofParts, Pattern.sum_names_reverse]
  refine ⟨hq'.frames, hq'.ignoreSpace, ?_, ?_⟩
  · rw [hlevel]
    refine ⟨(Pattern.Denotes.ofParts (denotes_of_standsFor hpats)).congr hagrees, ?_, ?_⟩
    · rw [hlevelNames, names_of_standsFor hpats, Expr.sum_names_settled, Expr.names_settled, hnames]
    · rw [depth_ofParts, depths_of_standsFor hpats, List.map_map]
      exact hdepth.symm
  · rw [hlevel, hlevelNames]
    exact hq'.names

/-- Branches were read after the one in hand. -/
structure Progress.GainsBranches (p : Progress) (pats : List Pattern) (q : Progress) : Prop where
  branches : q.branches.reverse ++ [.ofParts q.parts] =
    p.branches.reverse ++ .ofParts p.parts :: pats
  frames : q.frames = p.frames
  ignoreSpace : q.ignoreSpace = false
  names : (q.names : Multiset String) = (pats.map Pattern.names).sum + p.names

theorem leads_branches (h : ∀ x ∈ xs, x.Sound ∧ x.Prints)
    (hp : p.Admits (xs.map Expr.names).sum) (hrest : Expr.Clear rest) :
    Leads p (Expr.printBranches xs) rest fun q =>
      ∃ pats, List.Forall₂ Pattern.StandsFor pats (xs.map Expr.settled) ∧
        p.GainsBranches pats q := by
  induction xs generalizing p with
  | nil => exact .refl ⟨[], .nil, rfl, rfl, hp.ignoreSpace, (zero_add _).symm⟩
  | cons x xs ih =>
    rw [List.forall_mem_cons] at h
    obtain ⟨⟨-, hx⟩, hxs⟩ := h
    have hnext : Expr.Clear (Expr.printBranches xs ++ rest) := Expr.clear_printBranches hrest
    rw [List.map_cons, List.sum_cons] at hp
    let barred : Progress := { p with branches := .ofParts p.parts :: p.branches, parts := [] }
    have hbarred : barred.Admits (x.names + (xs.map Expr.names).sum) := ⟨hp.ignoreSpace, hp.nodup⟩
    have hbar : Leads p ['|'] (x.print ++ (Expr.printBranches xs ++ rest)) (· = barred) :=
      .step hp.ignoreSpace (List.cons_ne_nil _ _) rfl rfl
    have hbranch : Leads p ('|' :: x.print) (Expr.printBranches xs ++ rest)
        (barred.GainsFor x.settled) := by
      refine hbar.trans ?_
      rintro q rfl
      exact hx.read _ _ hbarred.left hnext.precedes
    refine hbranch.trans fun q hq => ?_
    refine (ih hxs (hbarred.after hq)).imp ?_
    obtain ⟨pat, hpat, hq⟩ := hq
    rintro q' ⟨pats, hpats, hq'⟩
    refine ⟨pat :: pats, .cons hpat hpats, ?_, hq'.frames.trans hq.frames, hq'.ignoreSpace, ?_⟩
    · rw [hq'.branches, hq.branches, hq.parts, List.reverse_cons, List.append_assoc]
      rfl
    · rw [hq'.names, hq.names, List.map_cons, List.sum_cons, add_left_comm, add_assoc]

theorem prints_alternation (hne : xs ≠ []) (h : ∀ x ∈ xs, x.Sound ∧ x.Prints) :
    (Expr.alternation xs).Prints := by
  obtain ⟨x, xs, rfl⟩ := List.exists_cons_of_ne_nil hne
  rw [List.forall_mem_cons] at h
  obtain ⟨⟨-, hx⟩, hxs⟩ := h
  refine .of_closed rfl fun p rest hp => ?_
  rw [Expr.settled_alternation]
  have hend : Expr.Clear (')' :: rest) := Expr.clear_close rest
  have hnext : Expr.Clear (Expr.printBranches xs ++ ')' :: rest) := Expr.clear_printBranches hend
  refine leads_opened opens_plain hp.ignoreSpace fun q hq => ?_
  have hinside : q.Admits (x.names + (xs.map Expr.names).sum) := by
    rw [Expr.names_alternation, List.map_cons, List.sum_cons] at hp
    exact hp.inside_flags hq
  refine (hx.read q _ hinside.left hnext.precedes).trans fun q₁ hq₁ => ?_
  refine (leads_branches hxs (hinside.after hq₁) hend).imp ?_
  obtain ⟨pat, hpat, hq₁⟩ := hq₁
  rintro q₂ ⟨pats, hpats, hq₂⟩
  have hlevel : q₂.branches.reverse ++ [.ofParts q₂.parts] = pat :: pats := by
    rw [hq₂.branches, hq₁.branches, hq.branches, hq₁.parts, hq.parts]
    rfl
  have hall : List.Forall₂ Pattern.StandsFor (pat :: pats) ((x :: xs).map Expr.settled) :=
    .cons hpat hpats
  have hlevelNames : q₂.level.names = ((pat :: pats).map Pattern.names).sum := by
    rw [Progress.names_level, ← hlevel, List.map_append, List.sum_append,
      Pattern.sum_names_reverse, List.map_singleton, List.sum_singleton, Pattern.names_ofParts,
      add_comm]
  refine ⟨hq₂.frames.trans hq₁.frames, hq₂.ignoreSpace, ?_, ?_⟩
  · refine ⟨Pattern.Denotes.level ?_, ?_, ?_⟩
    · rw [hlevel]
      exact denotes_of_standsFor hall
    · rw [hlevelNames, names_of_standsFor hall, Expr.names_alternation]
    · rw [depth_level, hlevel, depths_of_standsFor hall, Expr.patternDepth,
        Expr.patternDepths_eq_map]
  · rw [hlevelNames, hq₂.names, hq₁.names, List.map_cons, List.sum_cons, add_left_comm, add_assoc]

/-- A text matches what its characters match one after the other. -/
theorem agrees_concat_chars (chars : List Char) :
    (Expr.concat (chars.map fun c => .text [c])).Agrees (.text chars) := by
  induction chars with
  | nil =>
    intro input i j _
    simp only [List.map_nil, Expr.Matches, Expr.MatchesAll, List.length_nil, Nat.add_zero,
      List.nil_prefix, and_true, eq_comm]
  | cons c cs ih =>
    intro input i j hi
    rw [← List.singleton_append, Expr.matches_text_append]
    refine exists_congr fun k => and_congr_right fun hk => ?_
    exact ih input k j (Expr.forward_matches input _ i k hi hk).2

theorem printParts_chars (chars : List Char) :
    Expr.printParts (chars.map fun c => .text [c]) = chars.flatMap plainChar := by
  induction chars with
  | nil => rfl
  | cons c cs ih =>
    rw [List.map_cons, Expr.printParts, ih, List.flatMap_cons]
    simp [Expr.print]

theorem prints_char (c : Char) : (Expr.text [c]).Prints := by
  refine .of_closed rfl fun p rest hp => ?_
  have htext : (Expr.text [c]).print = plainChar c := by
    simp [Expr.print]
  rw [htext]
  exact leads_literal hp.ignoreSpace c rest

theorem prints_text {chars : List Char} (hne : chars ≠ []) : (Expr.text chars).Prints := by
  by_cases hmany : 1 < chars.length
  · refine .of_closed rfl fun p rest hp => ?_
    rw [Expr.print, if_pos hmany, ← printParts_chars]
    refine leads_parts_group ?_ hp ?_ ?_ ?_
    · intro x hx
      obtain ⟨c, -, rfl⟩ := List.mem_map.1 hx
      exact ⟨.text (List.cons_ne_nil _ _), prints_char c⟩
    · rw [List.map_map]
      exact agrees_concat_chars chars
    · rw [List.map_map]
      exact (List.sum_eq_zero (by simp [Expr.names])).symm
    · rw [List.map_map]
      show (if 1 < chars.length then 2 else 0) = Expr.joinedDepth (chars.map fun _ => 0) + 1
      rw [Expr.joinedDepth_flat, if_pos hmany, if_pos hmany]
  · have hone : chars.length = 1 := by
      have hpos := List.length_pos_iff.2 hne
      omega
    obtain ⟨c, rfl⟩ := List.length_eq_one_iff.1 hone
    exact prints_char c

theorem prints_set {unicode : Bool} {s : CodeSet} (hs : s.Tidy)
    (hascii : unicode = false → s.isAscii = true) : (Expr.set unicode s).Prints := by
  refine .of_closed rfl fun p rest hp => ?_
  rw [Expr.print]
  by_cases hne : s.ranges = []
  · rw [if_pos (by simp [hne])]
    exact leads_set_none hp.ignoreSpace hne
  · rw [if_neg (by simp [hne])]
    cases unicode with
    | true => exact leads_set_chars hp.ignoreSpace hs hne
    | false => exact leads_set_bytes hp.ignoreSpace hs hne (hascii rfl)

theorem prints_concat (h : ∀ x ∈ xs, x.Sound ∧ x.Prints) : (Expr.concat xs).Prints := by
  refine .of_closed rfl fun p rest hp => leads_parts_group h hp ?_ (Expr.names_concat xs) ?_
  · rw [Expr.settled_concat]
    exact .refl _
  · rw [Expr.printedDepth, Expr.settled_concat, Expr.patternDepth, Expr.patternDepths_eq_map,
      List.map_map]
    rfl

theorem prints_look (l : Look) : (Expr.look l).Prints where
  read p rest hp hrest := leads_look hp.ignoreSpace l hrest.counts
  readMarked hopen := by cases hopen

theorem prints_empty : Expr.empty.Prints := by
  refine .of_closed rfl fun p rest hp => ?_
  have hnone : ∀ x ∈ ([] : List Expr), x.Sound ∧ x.Prints := by simp
  exact leads_parts_group hnone hp (fun input i j _ => Iff.rfl) rfl rfl

/-- Every sound expression is read as a part that stands for it, but for lost options. -/
theorem Expr.Sound.prints (h : x.Sound) : x.Prints := by
  induction h with
  | empty => exact prints_empty
  | text hne => exact prints_text hne
  | set hs hascii => exact prints_set hs hascii
  | look => exact prints_look _
  | repetition hbounds _ ih => exact prints_repetition hbounds ih
  | capture hname hsub ih => exact prints_capture hname hsub ih
  | concat hparts ih => exact prints_concat fun x hx => ⟨hparts x hx, ih x hx⟩
  | alternation hne hbranches ih =>
    exact prints_alternation hne fun x hx => ⟨hbranches x hx, ih x hx⟩

/-! ## Reading what was printed -/

/-- What is printed for an expression is read as a pattern that stands for it, but for lost options,
unless it nests too deeply. -/
theorem read_print (h : x.WellFormed) : ∃ pat : Pattern, pat.StandsFor x.settled ∧
    Pattern.read x.print = if nestLimit < x.printedDepth then .error .nestLimit else .ok pat := by
  have hstart : Progress.start.Admits x.names := by
    refine ⟨rfl, ?_⟩
    rw [show (Progress.start.names : Multiset String) = 0 from rfl, add_zero]
    exact h.names
  obtain ⟨q, left, ⟨pat, hpat, hq⟩, hleft, hread⟩ :=
    h.sound.prints.read .start [] hstart Expr.precedes_nil x.print.length.succ (by simp)
  -- the text ends here, and the part is all there is
  obtain ⟨left, rfl⟩ : ∃ n, left = n + 1 := ⟨left - 1, by simp at hleft; omega⟩
  have hend : readAll (left + 1) q [] = .ok q := by rw [readAll, hq.ignoreSpace]; rfl
  rw [List.append_nil, hend] at hread
  have hframes : q.frames.isEmpty = true := by rw [hq.frames]; rfl
  have hlevel : q.level = pat := by
    simp only [Progress.level, hq.branches, hq.parts]
    rfl
  refine ⟨pat, hpat, ?_⟩
  rw [Pattern.read, hread]
  show (if q.frames.isEmpty then _ else _) = _
  rw [if_pos hframes, hlevel, hpat.depth]
  rfl

/-- What is printed for an expression and does not nest too deeply is the expression when it is
read, but for lost options. -/
theorem reread_of_le (h : x.WellFormed) (hdepth : x.printedDepth ≤ nestLimit) :
    ∃ y, reread x = .ok y ∧ y.Agrees x.settled := by
  obtain ⟨pat, hpat, hread⟩ := read_print h
  obtain ⟨y, hy, -, hagrees⟩ := hpat.denotes
  refine ⟨y, ?_, hagrees⟩
  rw [reread, hread, if_neg (Nat.not_lt.2 hdepth)]
  show (Expr.ofPatternFrom .initial pat >>= fun x => _) = _
  rw [hy]
  rfl

/-- What is printed for an expression and nests too deeply cannot be read. -/
theorem reread_of_lt (h : x.WellFormed) (hdepth : nestLimit < x.printedDepth) :
    reread x = .error .nestLimit := by
  obtain ⟨pat, -, hread⟩ := read_print h
  rw [reread, hread, if_pos hdepth]
  rfl

/-- What is read of a printed expression is the expression, but for lost options. -/
theorem agrees_settled {y : Expr} (h : x.WellFormed) (hy : reread x = .ok y) :
    y.Agrees x.settled := by
  by_cases hdepth : x.printedDepth ≤ nestLimit
  · obtain ⟨z, hz, hagrees⟩ := reread_of_le h hdepth
    cases hz.symm.trans hy
    exact hagrees
  · cases (reread_of_lt h (Nat.not_le.1 hdepth)).symm.trans hy

/-- What is printed for an expression means the same when it is read. -/
def Expr.PrintsFaithfully (x : Expr) : Prop := ∀ y, reread x = .ok y → y.Agrees x

/-- An expression that can be printed and read is printed faithfully if no option that matters is
lost. -/
theorem printsFaithfully_iff {y : Expr} (hwf : x.WellFormed) (hy : reread x = .ok y) :
    x.PrintsFaithfully ↔ x.settled.Agrees x := by
  have hsettled : y.Agrees x.settled := agrees_settled hwf hy
  constructor
  · intro h
    exact hsettled.symm.trans (h y hy)
  · intro h z hz
    exact (agrees_settled hwf hz).trans h

end TestSelection.Regex
