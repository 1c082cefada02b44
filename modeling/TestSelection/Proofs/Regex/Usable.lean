import TestSelection.Proofs.Regex.Faults
import TestSelection.Proofs.Regex.Whole

/-!
# Which patterns can be used

**Theorem (`Regex.ofString_cases`).** A text that is no pattern is refused for a fault in this text.
A pattern can be used, or its program is too large, if its anchored form nests no deeper than the
limit when it is printed. If it nests deeper, the pattern is refused, for a text that nobody wrote.

The anchored form is read as a pattern again, under the limit that the pattern itself was read
under. Nothing but this limit can get in the way: whatever is printed for a well-formed expression
is read, and an expression is made of it (`reread_of_le`). The limit can, since the printed form may
need more groups than the text has. A text that is just within the limit is refused for it
(`ofString_nestedGroups`).
-/

namespace TestSelection.Regex

/-! ## Compiling -/

theorem ofString_eq_error {p : String} {e : Reason} (h : compile p = .error e) :
    Regex.ofString p = .error ⟨p, e⟩ := by
  unfold Regex.ofString
  split
  · next x hx => cases hx.symm.trans h
  · next e' he' => cases he'.symm.trans h; rfl

theorem exists_ofString_eq_ok {p : String} {x : Expr} (h : compile p = .ok x) :
    ∃ r, Regex.ofString p = .ok r := by
  unfold Regex.ofString
  split
  · exact ⟨_, rfl⟩
  · next e he => cases he.symm.trans h

theorem compile_eq_of_parse {p : String} {x : Expr} (h : parse p = .ok x) :
    compile p = match reread (anchor x) with
      | .error _ => .error .anchoredForm
      | .ok y => if Program.tooLarge y then .error .tooLarge else .ok y := by
  rw [compile, h]
  rfl

/-! ## The limit -/

/-- **Which patterns can be used.** A fault in the text is told of the text. A pattern can be used
or is too large, unless its anchored form nests too deeply when it is printed. -/
theorem ofString_cases (p : String) :
    (∀ e, parse p = .error e → e.IsFault ∧ Regex.ofString p = .error ⟨p, e⟩) ∧
      (∀ x, parse p = .ok x → (anchor x).printedDepth ≤ nestLimit →
        (∃ r, Regex.ofString p = .ok r) ∨ Regex.ofString p = .error ⟨p, .tooLarge⟩) ∧
      (∀ x, parse p = .ok x → nestLimit < (anchor x).printedDepth →
        Regex.ofString p = .error ⟨p, .anchoredForm⟩) := by
  refine ⟨fun e he => ⟨blamesText_parse p e he, ?_⟩, fun x hx hdepth => ?_, fun x hx hdepth => ?_⟩
  · refine ofString_eq_error ?_
    rw [compile, he]
    rfl
  · have hwf := wellFormed_anchor (parse_wellFormed hx)
    obtain ⟨y, hy, -⟩ := reread_of_le hwf hdepth
    have hcompile := compile_eq_of_parse hx
    rw [hy] at hcompile
    by_cases hlarge : Program.tooLarge y = true
    · exact .inr (ofString_eq_error (hcompile.trans (if_pos hlarge)))
    · exact .inl (exists_ofString_eq_ok (hcompile.trans (if_neg hlarge)))
  · have hwf := wellFormed_anchor (parse_wellFormed hx)
    refine ofString_eq_error ?_
    rw [compile_eq_of_parse hx, reread_of_lt hwf hdepth]

namespace Sample

/-- A letter in as many groups as the limit allows. -/
def nestedChars : List Char := List.replicate nestLimit '(' ++ 'a' :: List.replicate nestLimit ')'

/-- These characters as a text. -/
def nested : String := String.ofList nestedChars

theorem toList_nested : nested.toList = nestedChars := String.toList_ofList

theorem printedDepth_nested :
    ∃ x, parse nested = .ok x ∧ (anchor x).printedDepth = nestLimit + 2 := by
  refine map_eq_ok_iff.1 ?_
  rw [parse, toList_nested]
  decide +kernel

end Sample

/-- A group that is not closed, a usual pattern, and a pattern that is refused for its printed
form. -/
theorem ofString_cases_sample :
    Regex.ofString "(" = .error ⟨"(", .groupUnclosed⟩ ∧
      (∃ r, Regex.ofString "(Foo|Bar)+" = .ok r) ∧
      Regex.ofString Sample.nested = .error ⟨Sample.nested, .anchoredForm⟩ := by
  have hunclosed : parse "(" = .error .groupUnclosed :=
    (map_eq_error_iff (f := fun _ => ())).1 (by decide +kernel)
  obtain ⟨x, hx, hdepth⟩ : ∃ x, parse "(Foo|Bar)+" = .ok x ∧ (anchor x).printedDepth = 8 :=
    map_eq_ok_iff.1 (by decide +kernel)
  have hsmall : (Regex.ofString "(Foo|Bar)+").isOk = true := by decide +kernel
  obtain ⟨y, hy, hdeep⟩ := Sample.printedDepth_nested
  refine ⟨((ofString_cases "(").1 _ hunclosed).2, ?_, ?_⟩
  · have husable := (ofString_cases "(Foo|Bar)+").2.1 x hx (by rw [hdepth]; decide)
    refine husable.resolve_right fun h => ?_
    rw [h] at hsmall
    cases hsmall
  · exact (ofString_cases Sample.nested).2.2 y hy (by rw [hdeep]; decide)

/-- A pattern can be refused although nothing is wrong with it. -/
theorem ofString_nestedGroups :
    (∃ x, parse Sample.nested = .ok x) ∧
      Regex.ofString Sample.nested = .error ⟨Sample.nested, .anchoredForm⟩ := by
  refine ⟨?_, ofString_eq_error ((map_eq_error_iff (f := fun _ => ())).1 ?_)⟩
  · obtain ⟨x, hx, -⟩ := Sample.printedDepth_nested
    exact ⟨x, hx⟩
  · rw [compile, parse, Sample.toList_nested]
    decide +kernel

end TestSelection.Regex
