import TestSelection.Proofs.Json.Layout
import TestSelection.Proofs.Json.Plain
import TestSelection.Proofs.Shape.Record

/-!
# Taking data out of texts

How readers of trees deal with the trees of values. Records that were written give their fields
(`Tree.record_written`). A tagged value is the value of the tree, if it is not too deep and if the
tag stands in it once and is known (`Tree.toTagged_eq_ok_iff`).

A text denotes a value if it is JSON throughout and its tree is that of the value (`Denotes`). It
denotes one value at most, and a value that was written is denoted by what was written.
-/

namespace TestSelection.Json

/-! ## Lists -/

namespace Tree

theorem asSequence_eq_ok_iff {t : Tree} {items : List Tree} :
    t.asSequence = .ok items ↔ t = .array items := by
  cases t <;> simp [asSequence]

theorem each_eq_ok_iff {α : Type} {read : Tree → Except Fault α} {ts : List Tree} {xs : List α} :
    each read ts = .ok xs ↔ List.Forall₂ (fun t x => read t = .ok x) ts xs := by
  induction ts generalizing xs with
  | nil => rw [each, List.forall₂_nil_left_iff, Except.ok.injEq, eq_comm]
  | cons t ts ih =>
    simp only [each, bind_eq_ok_iff, pure_eq_ok_iff, ih, List.forall₂_cons_left_iff]
    constructor
    · rintro ⟨x, hx, xs', hxs, rfl⟩
      exact ⟨x, xs', hx, hxs, rfl⟩
    · rintro ⟨x, xs', hx, hxs, rfl⟩
      exact ⟨x, hx, xs', hxs, rfl⟩

/-- A list that was written item by item is read item by item. -/
theorem each_ofValue {α : Type} {read : Tree → Except Fault α} {toValue : α → Value} {xs : List α}
    (h : ∀ x ∈ xs, read (ofValue (toValue x)) = .ok x) :
    (do each read (← (ofValue (.array (xs.map toValue))).asSequence)) = .ok xs := by
  rw [ofValue, ofItems_eq_map, List.map_map]
  show each read _ = .ok xs
  rw [each_eq_ok_iff, List.forall₂_map_left_iff, List.forall₂_same]
  exact h

/-! ## Records -/

section

variable {F : Type} [DecidableEq F] {T : F → Type} {r : Record F} {how : Reading Fault Tree T}

/-- Reading the entries of some fields gives the values of these fields. -/
theorem record_written {fs : List F} {nodes : F → Value} {values : (f : F) → T f} (hfs : fs.Nodup)
    (hname : ∀ f ∈ fs, r.field? (r.name f) = some f)
    (hread : ∀ f ∈ fs, how.field f (ofValue (nodes f)) = .ok (values f)) :
    (ofValue (.table (fs.map fun f => (r.name f, nodes f)))).record r how =
      .ok ⟨.holding fs values, fun f => .missingField (r.name f)⟩ := by
  have hwritten : (ofEntries (fs.map fun f => (r.name f, nodes f))).map
      (fun e => (key e.1, e.2)) = r.written fs fun f => ofValue (nodes f) := by
    rw [ofEntries_eq_map, List.map_map, List.map_map]
    rfl
  rw [ofValue, record, hwritten]
  exact Record.ofEntries_written hfs hname hread

/-- What holds of all that is read from plain trees holds of the values of a record. -/
theorem forall_record {P : (f : F) → T f → Prop} {t : Tree} {fields : Record.Fields T}
    (ht : t.Plain) (hread : ∀ n : Tree, n.Plain → ∀ f x, how.field f n = .ok x → P f x)
    (h : t.record r how = .ok fields) : ∀ f x, fields.values f = some x → P f x := by
  cases ht with
  | array hitems => exact Record.forall_ofItems (fun n hn => hread n (hitems n hn)) h
  | table hentries =>
    refine Record.forall_ofEntries (fun e he => ?_) h
    obtain ⟨e', he', rfl⟩ := List.mem_map.1 he
    exact hread e'.2 (hentries e' he')
  | null | bool | number | string | unreadable | broken => cases h

end

/-! ## Tagged values -/

section

variable {α : Type} {room : Nat} {title tag : String} {ofName : String → Except Mismatch α}

/-- A value is a tag: a string, and one that is known. -/
def IsTag (ofName : String → Except Mismatch α) (v : Value) : Prop :=
  ∃ s a, v = .string s ∧ ofName s = .ok a

theorem asTag_eq_ok_iff {t : Tree} {s : String} :
    asTag ofName t = .ok s ↔ t = .string s ∧ ∃ a, ofName s = .ok a := by
  cases t with
  | string s' =>
    rw [asTag]
    cases hname : ofName s' with
    | ok a =>
      simp only [Except.ok.injEq, Tree.string.injEq]
      exact ⟨by rintro rfl; exact ⟨rfl, a, hname⟩, fun h => h.1⟩
    | error m =>
      refine iff_of_false (by simp) ?_
      rintro ⟨h, a, ha⟩
      cases h
      cases hname.symm.trans ha
  | null | bool | number | array | table | unreadable | broken => simp [asTag]

theorem toValue_eq_string_iff {t : Tree} (ht : t.Plain) {s : String} :
    t.toValue room = .ok (.string s) ↔ t = .string s := by
  rw [toValue_eq_ok_iff ht, ofValue]
  exact and_iff_left (Nat.zero_le room)

/-- A tag is read as the string that any reader would find there. -/
theorem exists_asTag_iff {t : Tree} (ht : t.Plain) {v : Value} :
    (∃ s, asTag ofName t = .ok s ∧ v = .string s) ↔ t.toValue room = .ok v ∧ IsTag ofName v := by
  constructor
  · rintro ⟨s, hs, rfl⟩
    obtain ⟨rfl, a, ha⟩ := asTag_eq_ok_iff.1 hs
    exact ⟨rfl, s, a, rfl, ha⟩
  · rintro ⟨ht', s, a, rfl, ha⟩
    exact ⟨s, asTag_eq_ok_iff.2 ⟨(toValue_eq_string_iff ht).1 ht', a, ha⟩, rfl⟩

theorem taggedFields_cons_eq_ok_iff {seen : Bool} {k : String} {t : Tree}
    {es : List (Option String × Tree)} {fs : List (String × Value)} (ht : t.Plain) :
    taggedFields room tag ofName seen ((some k, t) :: es) = .ok fs ↔
      ∃ v rest, t.toValue room = .ok v ∧ (k = tag → seen = false ∧ IsTag ofName v) ∧
        taggedFields room tag ofName (seen || k = tag) es = .ok rest ∧ fs = (k, v) :: rest := by
  simp only [taggedFields, key_eq_ok_iff, bind_eq_ok_iff, Option.some_inj, exists_eq_left']
  by_cases hk : k = tag
  · cases seen with
    | true => simp [hk]
    | false =>
      simp only [hk, if_true, Bool.false_eq_true, if_false, bind_eq_ok_iff, pure_eq_ok_iff,
        forall_true_left, true_and, Bool.false_or, decide_true]
      constructor
      · rintro ⟨s, hs, rest, hrest, rfl⟩
        obtain ⟨hv, htag⟩ := (exists_asTag_iff ht).1 ⟨s, hs, rfl⟩
        exact ⟨.string s, rest, hv, htag, hrest, rfl⟩
      · rintro ⟨v, rest, hv, htag, hrest, rfl⟩
        obtain ⟨s, hs, rfl⟩ := (exists_asTag_iff ht).2 ⟨hv, htag⟩
        exact ⟨s, hs, rest, hrest, rfl⟩
  · simp only [hk, if_false, bind_eq_ok_iff, pure_eq_ok_iff, false_implies, true_and, decide_false,
      Bool.or_false]
    exact exists_congr fun v => exists_and_left.symm

/-- How often the tag stands in a table, with how often it was seen before. -/
theorem count_tag_cons_eq_one_iff {seen : Bool} {k : String} {keys : List String} :
    (k :: keys).count tag + seen.toNat = 1 ↔
      (k = tag → seen = false) ∧ keys.count tag + (seen || k = tag).toNat = 1 := by
  by_cases hk : k = tag <;> cases seen <;> simp [hk]

/-- The entries of a tagged table are those of any table, with one tag among them. -/
theorem taggedFields_eq_ok_iff {seen : Bool} {es : List (Option String × Tree)}
    {fs : List (String × Value)} (hes : ∀ e ∈ es, e.2.Plain) :
    taggedFields room tag ofName seen es = .ok fs ↔
      toFields room es = .ok fs ∧ (∀ f ∈ fs, f.1 = tag → IsTag ofName f.2) ∧
        (fs.map Prod.fst).count tag + seen.toNat = 1 := by
  induction es generalizing seen fs with
  | nil =>
    rw [toFields, taggedFields]
    cases seen with
    | false =>
      constructor
      · intro h
        cases h
      · rintro ⟨h, -, hcount⟩
        cases h
        cases hcount
    | true =>
      constructor
      · intro h
        cases h
        exact ⟨rfl, by simp, rfl⟩
      · intro h
        exact h.1
  | cons e es ih =>
    obtain ⟨_ | k, t⟩ := e
    · constructor
      · intro h
        cases h
      · intro h
        cases h.1
    · obtain ⟨ht, hes⟩ := List.forall_mem_cons.1 hes
      rw [taggedFields_cons_eq_ok_iff ht]
      simp only [toFields, bind_eq_ok_iff, pure_eq_ok_iff, key_eq_ok_iff, Option.some_inj,
        exists_eq_left', ih hes]
      constructor
      · rintro ⟨v, rest, hv, htag, ⟨hrest, htags, hcount⟩, rfl⟩
        exact ⟨⟨v, hv, rest, hrest, rfl⟩,
          List.forall_mem_cons.2 ⟨fun h => (htag h).2, htags⟩,
          count_tag_cons_eq_one_iff.2 ⟨fun h => (htag h).1, hcount⟩⟩
      · rintro ⟨⟨v, hv, rest, hrest, rfl⟩, htags, hcount⟩
        obtain ⟨htag, htags⟩ := List.forall_mem_cons.1 htags
        obtain ⟨hseen, hcount⟩ := count_tag_cons_eq_one_iff.1 hcount
        exact ⟨v, rest, hv, fun h => ⟨hseen h, htag h⟩, ⟨hrest, htags, hcount⟩, rfl⟩

/-- A value has a tag: one entry of a table, or the first item of an array. -/
def HasTag (tag : String) (ofName : String → Except Mismatch α) : Value → Prop
  | .table es => (∀ e ∈ es, e.1 = tag → IsTag ofName e.2) ∧ (es.map Prod.fst).count tag = 1
  | .array (v :: _) => IsTag ofName v
  | _ => False

/-- A tree is read as a tagged value if it is the tree of that value, there is room for it, and it
has a tag. -/
theorem toTagged_eq_ok_iff {t : Tree} {v : Value} (ht : t.Plain) :
    t.toTagged room title tag ofName = .ok v ↔
      t = ofValue v ∧ v.depth ≤ room ∧ HasTag tag ofName v := by
  rw [← and_assoc, ← toValue_eq_ok_iff ht]
  cases ht with
  | null | bool | string =>
    refine iff_of_false (by simp [toTagged]) ?_
    rintro ⟨h, htag⟩
    cases h
    exact htag
  | number hn =>
    refine iff_of_false (by simp [toTagged]) ?_
    rintro ⟨h, htag⟩
    cases h
    cases hn <;> exact htag
  | unreadable | broken =>
    constructor
    · intro h
      cases h
    · intro h
      cases h.1
  | @array items hitems =>
    rw [toValue_array_eq_ok_iff]
    cases room with
    | zero => simp [toTagged]
    | succ room =>
      cases items with
      | nil =>
        refine iff_of_false (by simp [toTagged]) ?_
        rintro ⟨⟨_, _, -, rfl, hv⟩, htag⟩
        cases hv
        exact htag
      | cons t ts =>
        simp only [toTagged, if_neg room.succ_ne_zero, Nat.add_sub_cancel, bind_eq_ok_iff,
          pure_eq_ok_iff, toValues_eq_ok_iff]
        constructor
        · rintro ⟨s, hs, vs, hvs, rfl⟩
          obtain ⟨hv, htag⟩ := (exists_asTag_iff (hitems t List.mem_cons_self)).1 ⟨s, hs, rfl⟩
          exact ⟨⟨room, _, rfl, rfl, .cons hv hvs⟩, htag⟩
        · rintro ⟨⟨_, _, ⟨⟩, rfl, hv⟩, htag⟩
          cases hv with
          | cons hv hvs =>
            obtain ⟨s, hs, rfl⟩ := (exists_asTag_iff (hitems t List.mem_cons_self)).2 ⟨hv, htag⟩
            exact ⟨s, hs, _, hvs, rfl⟩
  | @table es hes =>
    rw [toValue_table_eq_ok_iff]
    cases room with
    | zero => simp [toTagged]
    | succ room =>
      simp only [toTagged, if_neg room.succ_ne_zero, Nat.add_sub_cancel, bind_eq_ok_iff,
        pure_eq_ok_iff, taggedFields_eq_ok_iff hes, toFields_eq_ok_iff]
      constructor
      · rintro ⟨fs, ⟨hfs, htags, hcount⟩, rfl⟩
        exact ⟨⟨room, fs, rfl, rfl, hfs⟩, htags, hcount⟩
      · rintro ⟨⟨_, fs, ⟨⟩, rfl, hfs⟩, htags, hcount⟩
        exact ⟨fs, ⟨hfs, htags, hcount⟩, rfl⟩

theorem plain_ofValue (v : Value) : (ofValue v).Plain := by
  induction v with
  | null => exact .null
  | bool b => exact .bool b
  | int n => exact .number (.int n)
  | float x => exact .number (.float x)
  | string s => exact .string s
  | array items ih =>
    rw [ofValue, ofItems_eq_map]
    exact .array (List.forall_mem_map.2 ih)
  | table entries ih =>
    rw [ofValue, ofEntries_eq_map]
    exact .table (List.forall_mem_map.2 ih)

/-- A table with the tag in front comes back from its tree. -/
theorem toTagged_ofValue {s : String} {a : α} {entries : List (String × Value)}
    (hname : ofName s = .ok a) (hentries : ∀ e ∈ entries, e.1 ≠ tag)
    (hroom : (Value.table ((tag, .string s) :: entries)).depth ≤ room) :
    (ofValue (.table ((tag, .string s) :: entries))).toTagged room title tag ofName =
      .ok (.table ((tag, .string s) :: entries)) := by
  have hother : tag ∉ entries.map Prod.fst := by
    intro hmem
    obtain ⟨e, he, htag⟩ := List.mem_map.1 hmem
    exact hentries e he htag
  rw [toTagged_eq_ok_iff (plain_ofValue _)]
  refine ⟨rfl, hroom, List.forall_mem_cons.2 ⟨fun _ => ⟨s, a, rfl, hname⟩, ?_⟩, ?_⟩
  · exact fun e he htag => absurd htag (hentries e he)
  · rw [List.map_cons, List.count_cons_self, List.count_eq_zero_of_not_mem hother]

/-- What was read as a tagged value was not too deep. -/
theorem depth_le_of_toTagged {t : Tree} {v : Value} (ht : t.Plain)
    (h : t.toTagged room title tag ofName = .ok v) : v.depth ≤ room :=
  ((toTagged_eq_ok_iff ht).1 h).2.1

end

end Tree

/-! ## Texts -/

/-- The text is JSON, and this is the value that it stands for. -/
def Denotes (text : String) (v : Value) : Prop := Document.ofString text = ⟨Tree.ofValue v, true⟩

theorem Denotes.unique {text : String} {v w : Value} (hv : Denotes text v) (hw : Denotes text w) :
    v = w := by
  have htree : Tree.ofValue v = Tree.ofValue w := congrArg Document.root (hv.symm.trans hw)
  have hread := Tree.toValue_ofValue (Nat.le_max_left v.depth w.depth)
  rw [htree, Tree.toValue_ofValue (Nat.le_max_right v.depth w.depth)] at hread
  exact (Except.ok.inj hread).symm

theorem denotes_write (layout : Layout) {v : Value} (hv : v.Exact) :
    Denotes (write layout v) v := by
  have hblank : Blank "".toList := by simp [Blank]
  have htext := Document.ofString_write layout hv hblank
  rwa [String.append_empty] at htext

namespace Document

variable {α : Type} {read : Tree → Except Fault α} {x : α}

theorem read_eq_ok_iff {d : Document} :
    d.read read = .ok x ↔ read d.root = .ok x ∧ d.complete = true := by
  rw [Document.read, bind_eq_ok_iff]
  cases d.complete with
  | false => simp
  | true => simp [pure_eq_ok_iff]

/-- What is read from the tree of a value is read from every text of that value. -/
theorem read_write (layout : Layout) {v : Value} (hv : v.Exact)
    (h : read (Tree.ofValue v) = .ok x) :
    (Document.ofString (write layout v)).read read = .ok x := by
  rw [read_eq_ok_iff, denotes_write layout hv]
  exact ⟨h, rfl⟩

end Document

end TestSelection.Json
