import TestSelection.Proofs.Results
import TestSelection.Regex

/-!
# Faults in the text

**Theorem (`blamesText_parse`).** A text that is not understood as a pattern is refused for a fault
in this text (`Reason.IsFault`), never for what comes later: the size of a program, or the form in
which an expression is printed.

Every function that reads a piece of a pattern, and every function that makes an expression of one,
*blames the text* if it fails (`BlamesText`). It is so for a failure that is written down there, and
for what comes out of several steps if each step blames the text (`BlamesText.bind`). The facts
about single functions follow their definitions.
-/

namespace TestSelection.Regex

variable {α β : Type}

/-- The reason is a fault in the text of a pattern. -/
def Reason.IsFault (e : Reason) : Prop := e ≠ .tooLarge ∧ e ≠ .anchoredForm

/-- If there is no result, then it is for a fault in the text. -/
def BlamesText (x : Except Reason α) : Prop := ∀ e, x = .error e → e.IsFault

namespace BlamesText

@[grind .] theorem ok (a : α) : BlamesText (.ok a : Except Reason α) := by rintro e ⟨⟩

@[grind .] theorem pure (a : α) : BlamesText (Pure.pure a : Except Reason α) := ok a

@[grind =] theorem error_iff {e : Reason} :
    BlamesText (.error e : Except Reason α) ↔ e ≠ .tooLarge ∧ e ≠ .anchoredForm := by
  constructor
  · exact fun h => h e rfl
  · rintro h _ ⟨⟩
    exact h

/-- A later step is taken after an earlier one has given a result. -/
@[grind ←] theorem bind {x : Except Reason α} {f : α → Except Reason β} (hx : BlamesText x)
    (hf : ∀ a, BlamesText (f a)) : BlamesText (x >>= f) := by
  cases x with
  | ok a => exact hf a
  | error e =>
    rintro _ ⟨⟩
    exact hx e rfl

end BlamesText

/-! ## Small parts -/

section

variable (ignoreSpace : Bool) (text : List Char)

@[grind .] theorem blamesText_readDecimal : BlamesText (readDecimal ignoreSpace text).1 := by
  unfold readDecimal
  grind

@[grind .] theorem blamesText_scalar (digits : List Nat) : BlamesText (scalar digits) := by
  unfold scalar
  grind

@[grind .] theorem blamesText_readHexDigits (count : Nat) :
    BlamesText (readHexDigits ignoreSpace count text) := by
  fun_induction readHexDigits <;> grind

@[grind .] theorem blamesText_readHexBraced (steps : Nat) :
    BlamesText (readHexBraced ignoreSpace steps text) := by
  fun_induction readHexBraced <;> grind

@[grind .] theorem blamesText_readHex (letter : Char) :
    BlamesText (readHex ignoreSpace letter text) := by
  fun_cases readHex <;> grind

@[grind .] theorem blamesText_readBraced (steps : Nat) :
    BlamesText (readBraced ignoreSpace steps text) := by
  fun_induction readBraced <;> grind

@[grind .] theorem blamesText_readProperty (letter : Char) :
    BlamesText (readProperty ignoreSpace letter text) := by
  fun_cases readProperty <;> grind

@[grind .] theorem blamesText_readBoundary : BlamesText (readBoundary ignoreSpace text) := by
  fun_cases readBoundary <;> grind

@[grind .] theorem blamesText_readEscape : BlamesText (readEscape ignoreSpace text) := by
  fun_cases readEscape <;> grind

@[grind .] theorem blamesText_readPrimitive : BlamesText (readPrimitive ignoreSpace text) := by
  fun_cases readPrimitive <;> grind

/-! ## Classes -/

@[grind .] theorem blamesText_toItem (primitive : Primitive) : BlamesText primitive.toItem := by
  cases primitive <;> grind [Primitive.toItem]

@[grind .] theorem blamesText_toBoundary (primitive : Primitive) :
    BlamesText primitive.toBoundary := by
  cases primitive <;> grind [Primitive.toBoundary]

@[grind .] theorem blamesText_readMember : BlamesText (readMember ignoreSpace text) := by
  fun_cases readMember <;> grind

@[grind .] theorem blamesText_readRange : BlamesText (readRange ignoreSpace text) := by
  unfold readRange
  grind

@[grind .] theorem blamesText_readOpening : BlamesText (readOpening ignoreSpace text) := by
  fun_cases readOpening <;> grind

@[grind .] theorem blamesText_readClassFrom (steps : Nat) (items : List ClassItem)
    (frames : List ClassFrame) :
    BlamesText (readClassFrom ignoreSpace steps items frames text) := by
  fun_induction readClassFrom <;> grind

@[grind .] theorem blamesText_readClass : BlamesText (readClass ignoreSpace text) := by
  unfold readClass
  grind

/-! ## Groups and repetitions -/

@[grind .] theorem blamesText_readNameFrom (first : Bool) :
    BlamesText (readNameFrom first text) := by
  fun_induction readNameFrom <;> grind

@[grind .] theorem blamesText_readFlagsFrom (items : List FlagItem) :
    BlamesText (readFlagsFrom items text) := by
  fun_induction readFlagsFrom <;> grind

@[grind .] theorem blamesText_readOpenGroup (p : Progress) : BlamesText (readOpenGroup p text) := by
  unfold readOpenGroup
  grind

@[grind .] theorem blamesText_leave (p : Progress) : BlamesText p.leave := by
  fun_cases Progress.leave <;> grind

@[grind .] theorem blamesText_takeOperand (p : Progress) : BlamesText p.takeOperand := by
  fun_cases Progress.takeOperand <;> grind

@[grind .] theorem blamesText_readRepetition (p : Progress) (least : Nat) (greatest : Option Nat) :
    BlamesText (readRepetition p least greatest text) := by
  unfold readRepetition
  grind

@[grind .] theorem blamesText_repetitionCount {count : Except Reason Nat} (h : BlamesText count) :
    BlamesText (repetitionCount count) := by
  fun_cases repetitionCount <;> grind

@[grind .] theorem blamesText_readCounts : BlamesText (readCounts ignoreSpace text) := by
  fun_cases readCounts <;> grind

@[grind .] theorem blamesText_readCounted (p : Progress) : BlamesText (readCounted p text) := by
  unfold readCounted
  grind

/-! ## Patterns -/

@[grind .] theorem blamesText_readStep (p : Progress) : BlamesText (readStep p text) := by
  fun_cases readStep <;> grind

@[grind .] theorem blamesText_readAll (steps : Nat) (p : Progress) :
    BlamesText (readAll steps p text) := by
  fun_induction readAll <;> grind

theorem blamesText_read : BlamesText (Pattern.read text) := by
  unfold Pattern.read
  grind

end

/-! ## Expressions -/

section

variable (flags : Flags)

@[grind .] theorem blamesText_foldAndNegate (negated : Bool) (s : Unicode.CodeSet) :
    BlamesText (flags.foldAndNegate negated s) := by
  unfold Flags.foldAndNegate
  grind

@[grind .] theorem blamesText_perl (kind : PerlClass) (negated : Bool) :
    BlamesText (flags.perl kind negated) := blamesText_foldAndNegate _ _ _

@[grind .] theorem blamesText_property (name : PropertyName) (negated : Bool) :
    BlamesText (flags.property name negated) := by
  unfold Flags.property
  grind

@[grind .] theorem blamesText_char (l : Literal) : BlamesText (flags.char l) := by
  unfold Flags.char
  grind

@[grind .] theorem blamesText_member (l : Literal) : BlamesText (flags.member l) := by
  unfold Flags.member
  grind

@[grind .] theorem blamesText_literal (l : Literal) : BlamesText (flags.literal l) := by
  unfold Flags.literal
  grind

@[grind .] theorem blamesText_dot : BlamesText flags.dot := by
  unfold Flags.dot
  grind

mutual

theorem blamesText_item : ∀ i : ClassItem, BlamesText (flags.item i)
  | .empty | .literal _ | .range _ _ | .ascii _ _ | .property _ _ | .perl _ _ => by
    grind [Flags.item]
  | .bracketed negated content => by
    have hcontent := blamesText_content content
    grind [Flags.item]
  | .union items => by
    have hitems := blamesText_itemList items
    grind [Flags.item]

theorem blamesText_itemList : ∀ items : List ClassItem, BlamesText (flags.itemList items)
  | [] => by grind [Flags.itemList]
  | i :: is => by
    have hi := blamesText_item i
    have his := blamesText_itemList is
    grind [Flags.itemList]

theorem blamesText_content : ∀ content : ClassSet, BlamesText (flags.content content)
  | .item i => by
    have hi := blamesText_item i
    grind [Flags.content]
  | .op kind left right => by
    have hleft := blamesText_content left
    have hright := blamesText_content right
    cases kind <;> grind [Flags.content]

end

end

attribute [grind .] blamesText_content

mutual

theorem blamesText_ofPatternFrom : ∀ (pat : Pattern) (flags : Flags),
    BlamesText (Expr.ofPatternFrom flags pat)
  | .empty, _ | .flags _, _ | .literal _, _ | .dot, _ | .assertion _, _ | .property _ _, _
  | .perl _ _, _ | .bracketed _ _, _ => by grind [Expr.ofPatternFrom]
  | .repetition least greatest greedy sub, flags => by
    have hsub := blamesText_ofPatternFrom sub flags
    grind [Expr.ofPatternFrom]
  | .group (.capture index name) sub, flags => by
    have hsub := blamesText_ofPatternFrom sub flags
    grind [Expr.ofPatternFrom]
  | .group (.flags items) sub, flags => by
    have hsub := blamesText_ofPatternFrom sub (flags.update items)
    grind [Expr.ofPatternFrom]
  | .alternation branches, flags => by
    have hbranches := blamesText_ofPatternList branches flags
    grind [Expr.ofPatternFrom]
  | .concat parts, flags => by
    have hparts := blamesText_ofPatternList parts flags
    grind [Expr.ofPatternFrom]

theorem blamesText_ofPatternList : ∀ (pats : List Pattern) (flags : Flags),
    BlamesText (Expr.ofPatternList flags pats)
  | [], _ => by grind [Expr.ofPatternList]
  | pat :: pats, flags => by
    have hpat := blamesText_ofPatternFrom pat flags
    have hpats := blamesText_ofPatternList pats
    grind [Expr.ofPatternList]

end

/-- A text that is no pattern is refused for a fault in it. -/
theorem blamesText_parse (source : String) : BlamesText (parse source) := by
  have hread := blamesText_read source.toList
  have hbuild (pat : Pattern) := blamesText_ofPatternFrom pat .initial
  grind [parse, Expr.ofPattern]

end TestSelection.Regex
