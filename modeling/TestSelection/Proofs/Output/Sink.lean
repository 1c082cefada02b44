import Mathlib.Data.List.TakeDrop
import Mathlib.Tactic.ByContra
import Mathlib.Tactic.SplitIfs
import TestSelection.Proofs.Text.Utf8
import TestSelection.Selection.Report

/-!
# What sinks take

A sink without a limit takes all pieces that are written to it, and delivers them in order. So it
takes a report of any form as a whole.

**Theorem (`Selection.write_limited`).** A sink with a limit takes the beginning of the report, up
to the limit. Writing succeeds iff this is the whole report, and otherwise ends at the first piece
that does not go through.

To write pieces is to put their bytes all at once (`Sink.write_eq_put`): what follows a piece that
fits is put where the piece ends, and what follows one that does not fit is not put.
-/

namespace TestSelection

namespace Sink

/-! ## Pieces as one -/

section

variable {s s' s'' : Sink} {bytes : List UInt8} {limit : Nat} {cause : WriteFailure}

theorem put_of_no_limit (hlimit : s.limit? = none) (bytes : List UInt8) :
    s.put bytes = ({ s with backwards := bytes.reverse ++ s.backwards }, .ok ()) := by
  rw [put, hlimit]

theorem put_of_limit (hlimit : s.limit? = some limit) (bytes : List UInt8) :
    s.put bytes =
      ({ s with backwards := (bytes.take (limit - s.backwards.length)).reverse ++ s.backwards },
        if bytes.length ≤ limit - s.backwards.length then .ok () else .error s.failure) := by
  rw [put, hlimit]

/-- Bytes that go through fit into the room that is left. -/
theorem length_le_of_put (hlimit : s.limit? = some limit) (h : s.put bytes = (s', .ok ())) :
    bytes.length ≤ limit - s.backwards.length := by
  by_contra hlong
  rw [put_of_limit hlimit, if_neg hlong] at h
  cases h

/-- Bytes that go through are taken as a whole. -/
theorem eq_of_put (h : s.put bytes = (s', .ok ())) :
    s' = { s with backwards := bytes.reverse ++ s.backwards } := by
  cases hlimit : s.limit? with
  | none =>
    rw [put_of_no_limit hlimit] at h
    exact (congrArg Prod.fst h).symm
  | some limit =>
    have hfits := length_le_of_put hlimit h
    rw [put_of_limit hlimit, List.take_of_length_le hfits] at h
    exact (congrArg Prod.fst h).symm

theorem put_nil (s : Sink) : s.put [] = (s, .ok ()) := by
  cases hlimit : s.limit? with
  | none => rw [put_of_no_limit hlimit, List.reverse_nil, List.nil_append]
  | some limit =>
    have hfits : ([] : List UInt8).length ≤ limit - s.backwards.length := Nat.zero_le _
    rw [put_of_limit hlimit, if_pos hfits, List.take_nil, List.reverse_nil, List.nil_append]

/-- What comes after bytes that go through is put where they end. -/
theorem put_append_of_ok (h : s.put bytes = (s', .ok ())) (more : List UInt8) :
    s.put (bytes ++ more) = s'.put more := by
  have hs' := eq_of_put h
  have hlimit' : s'.limit? = s.limit? := by rw [hs']; rfl
  cases hlimit : s.limit? with
  | none =>
    rw [put_of_no_limit hlimit, put_of_no_limit (hlimit'.trans hlimit), hs', List.reverse_append,
      List.append_assoc]
  | some limit =>
    have hfits := length_le_of_put hlimit h
    have hroom : limit - s'.backwards.length = limit - s.backwards.length - bytes.length := by
      rw [hs', List.length_append, List.length_reverse]
      omega
    have hmore : (bytes ++ more).length ≤ limit - s.backwards.length ↔
        more.length ≤ limit - s.backwards.length - bytes.length := by
      rw [List.length_append]
      omega
    rw [put_of_limit hlimit, put_of_limit (hlimit'.trans hlimit), hroom, List.take_append,
      List.take_of_length_le hfits, List.reverse_append, List.append_assoc, hs']
    simp only [hmore]
    rfl

/-- What comes after bytes that do not go through is not put. -/
theorem put_append_of_error (h : s.put bytes = (s', .error cause)) (more : List UInt8) :
    s.put (bytes ++ more) = (s', .error cause) := by
  cases hlimit : s.limit? with
  | none =>
    rw [put_of_no_limit hlimit] at h
    cases h
  | some limit =>
    rw [put_of_limit hlimit] at h
    have hlong : ¬ bytes.length ≤ limit - s.backwards.length := by
      intro hfits
      rw [if_pos hfits] at h
      cases h
    have hmore : ¬ (bytes ++ more).length ≤ limit - s.backwards.length := by
      rw [List.length_append]
      omega
    rw [put_of_limit hlimit, List.take_append_of_le_length (Nat.le_of_not_le hlong), ← h,
      if_neg hlong, if_neg hmore]

/-- To write pieces is to put what they make up. -/
theorem write_eq_put (s : Sink) (pieces : List String) :
    s.write pieces = s.put (String.join pieces).toUTF8.toList := by
  rw [Utf8.toList_toUTF8_join]
  induction pieces generalizing s with
  | nil => exact s.put_nil.symm
  | cons piece rest ih =>
    rw [write, List.flatMap_cons]
    split
    · next s' hput => rw [ih, put_append_of_ok hput]
    · next s' cause hput => rw [put_append_of_error hput]

/-- A piece that does not go through is the last one that is put. -/
theorem write_of_put_error {before : List String} {piece : String}
    (hbefore : s.write before = (s', .ok ()))
    (hpiece : s'.put piece.toUTF8.toList = (s'', .error cause)) (after : List String) :
    s.write (before ++ piece :: after) = (s'', .error cause) := by
  rw [write_eq_put] at hbefore ⊢
  rw [Utf8.toList_toUTF8_join] at hbefore ⊢
  rw [List.flatMap_append, List.flatMap_cons, put_append_of_ok hbefore, put_append_of_error hpiece]

end

/-! ## Endless sinks -/

theorem write_endless (taken : List UInt8) (pieces : List String) :
    Sink.write ⟨.endless, taken⟩ pieces =
      (⟨.endless, (pieces.flatMap fun piece => piece.toUTF8.toList).reverse ++ taken⟩, .ok ()) := by
  rw [write_eq_put, put_of_no_limit rfl, Utf8.toList_toUTF8_join]

theorem delivered_endless (taken : List UInt8) :
    (⟨.endless, taken⟩ : Sink).delivered = taken.reverse := rfl

end Sink

/-! ## Reports -/

/-- The report arrives in a sink without a limit. -/
theorem Selection.write_endless (s : Selection) (format : ReportFormat) (color : Bool) :
    s.write format color (.ofDevice .endless) =
      (⟨.endless, (s.text format color).toUTF8.toList.reverse⟩, .ok ()) := by
  rw [write, Sink.ofDevice, Sink.write_endless, text, Utf8.toList_toUTF8_join, List.append_nil]
  rfl

/-- What arrives there is the text of the report. -/
theorem Selection.exists_delivered (s : Selection) (format : ReportFormat) (color : Bool) :
    ∃ sink, s.write format color (.ofDevice .endless) = (sink, .ok ()) ∧
      sink.delivered = (s.text format color).toUTF8.toList := by
  refine ⟨_, s.write_endless format color, ?_⟩
  rw [Sink.delivered_endless, List.reverse_reverse]

section

variable {s : Selection} {format : ReportFormat} {color : Bool}

/-- A sink with a limit takes a report up to the limit. -/
theorem Selection.write_of_limit {device : Device} {limit : Nat}
    (hlimit : (Sink.ofDevice device).limit? = some limit) :
    s.write format color (.ofDevice device) =
      (⟨device, ((s.text format color).toUTF8.toList.take limit).reverse⟩,
        if (s.text format color).toUTF8.toList.length ≤ limit then .ok ()
        else .error ⟨format, (Sink.ofDevice device).failure⟩) := by
  have hroom : limit - (Sink.ofDevice device).backwards.length = limit := Nat.sub_zero limit
  rw [write, Sink.write_eq_put, Sink.put_of_limit hlimit, hroom, ← text]
  split_ifs with hfits
  · exact Prod.ext (congrArg (Sink.mk device) (List.append_nil _)) rfl
  · exact Prod.ext (congrArg (Sink.mk device) (List.append_nil _)) rfl

/-- A piece of a report that does not go through ends the report. -/
theorem Selection.write_of_put_error {before after : List String} {piece : String}
    {sink sink' sink'' : Sink} {cause : WriteFailure}
    (hpieces : s.pieces format color = before ++ piece :: after)
    (hbefore : sink.write before = (sink', .ok ()))
    (hpiece : sink'.put piece.toUTF8.toList = (sink'', .error cause)) :
    s.write format color sink = (sink'', .error ⟨format, cause⟩) := by
  rw [write, hpieces, Sink.write_of_put_error hbefore hpiece]
  rfl

end

/-- **A write that fails ends the report.** A sink with a limit takes the bytes of the report up to
the limit. Writing succeeds iff these are all the bytes that a sink without a limit takes; if not,
the error names the form of the report. At whatever piece the sink fails, this piece is the last one
that is put, and its failure is the result. -/
theorem Selection.write_limited (s : Selection) (format : ReportFormat) (color : Bool)
    {device : Device} {limit : Nat} (hlimit : (Sink.ofDevice device).limit? = some limit) :
    ∃ whole, s.write format color (.ofDevice .endless) = (whole, .ok ()) ∧
      ∃ sink result, s.write format color (.ofDevice device) = (sink, result) ∧
        sink.taken = whole.taken.take limit ∧
        (result = .ok () ↔ sink.taken = whole.taken) ∧
        (sink.taken ≠ whole.taken →
          result = .error ⟨format, (Sink.ofDevice device).failure⟩) ∧
        ∀ before piece after, s.pieces format color = before ++ piece :: after →
          ∀ sink₁ sink₂ cause, (Sink.ofDevice device).write before = (sink₁, .ok ()) →
            sink₁.put piece.toUTF8.toList = (sink₂, .error cause) →
              sink = sink₂ ∧ result = .error ⟨format, cause⟩ := by
  refine ⟨_, s.write_endless format color, _, _, s.write_of_limit hlimit, ?_⟩
  rw [Sink.taken, Sink.taken, List.reverse_reverse, List.reverse_reverse, ne_eq,
    List.take_eq_self_iff]
  refine ⟨rfl, ?_, fun hlong => if_neg hlong, ?_⟩
  · split_ifs with hfits
    · exact iff_of_true rfl hfits
    · exact iff_of_false (fun h => by cases h) hfits
  · intro before piece after hpieces sink₁ sink₂ cause hbefore hpiece
    have hend := (s.write_of_limit hlimit).symm.trans
      (write_of_put_error hpieces hbefore hpiece)
    exact Prod.mk.inj hend

namespace Sample

/-- A selected test with a letter of two bytes in its name, and one that is skipped. -/
def sizeSelection : Selection :=
  ⟨[(.ofNames "" "Größe" "a", .selected), (.ofNames "" "Foo" "b", .skipped .blocklisted)]⟩

end Sample

/-- A sink that is full after three bytes has half a letter. -/
theorem Selection.write_limited_sample :
    (Sink.ofDevice (.limited 3)).limit? = some 3 ∧
      ∃ sink, Sample.sizeSelection.write (.lines true) false (.ofDevice (.limited 3)) =
          (sink, .error ⟨.lines true, .full⟩) ∧
        sink.taken = [0x47, 0x72, 0xC3] := by
  obtain ⟨whole, hwhole, sink, result, hwrite, htaken, -, hfails, -⟩ :=
    Selection.write_limited Sample.sizeSelection (.lines true) false
      (show (Sink.ofDevice (.limited 3)).limit? = some 3 from rfl)
  have heq : whole =
      (Sample.sizeSelection.write (.lines true) false (.ofDevice .endless)).1 :=
    (congrArg Prod.fst hwhole).symm
  have hbytes : sink.taken = [0x47, 0x72, 0xC3] := by
    rw [htaken, heq]
    decide +kernel
  have hshort : sink.taken ≠ whole.taken := by
    rw [hbytes, heq]
    decide +kernel
  exact ⟨rfl, sink, hwrite.trans (congrArg (Prod.mk sink) (hfails hshort)), hbytes⟩

end TestSelection
