import TestSelection.Json.Reading
import TestSelection.Proofs.Json.Layout
import TestSelection.Proofs.Results
import TestSelection.Proofs.Shape.Reading

/-!
# Variants of a record

A record is read from a table, and a table can be changed in ways that a reader does not notice
(`Record.Variant`). Entries that are no fields come in, with any JSON for their values. Entries
change their order. An entry with the default of its field is left out, or filled in. And what
stands inside a field is changed in ways that the reader of the field does not notice.

**Theorem (`Record.Variant.record`).** If a record is read from a tree, it is read from a variant of
the tree, and each field holds the same, where a field without a value counts as its default.

A variant of a tree that has a text has a text too (`Record.Variant.spelled`).
-/

namespace TestSelection

open Json (Fault SpellsTree Tree)

/-! ## Passing over JSON -/

namespace Json

namespace Tree

theorem skipItems_eq_ok_iff {items : List Tree} :
    skipItems items = .ok () ↔ ∀ t ∈ items, t.skip = .ok () := by
  induction items with
  | nil => simp [skipItems]
  | cons t ts ih => rw [skipItems, bind_eq_ok_iff, List.forall_mem_cons, ← ih, Unique.exists_iff]

theorem skipEntries_eq_ok_iff {entries : List (Option String × Tree)} :
    skipEntries entries = .ok () ↔ ∀ e ∈ entries, e.2.skip = .ok () := by
  induction entries with
  | nil => simp [skipEntries]
  | cons e es ih => rw [skipEntries, bind_eq_ok_iff, List.forall_mem_cons, ← ih, Unique.exists_iff]

end Tree

/-- Everything that is JSON can be passed over, however deep it is. -/
theorem SpellsTree.skip_eq {text : List Char} {t : Tree} (h : SpellsTree text t) :
    t.skip = .ok () := by
  induction h with
  | null | bool | emptyArray | emptyTable => rfl
  | @number _ n => cases hn : n.value? <;> simp [Tree.ofNumber?, Tree.skip]
  | @string _ pieces => cases hs : stringOf? pieces <;> simp [Tree.ofString?, Tree.skip]
  | array _ _ ih =>
    rw [Tree.skip, Tree.skipItems_eq_ok_iff]
    exact List.forall_mem_map.2 ih
  | table _ _ ih =>
    rw [Tree.skip, Tree.skipEntries_eq_ok_iff]
    exact List.forall_mem_map.2 ih

/-! ## Trees that have a text -/

/-- Some text is JSON and stands for the tree. -/
def Tree.Spelled (t : Tree) : Prop := ∃ text, SpellsTree text t

/-- Each key has a text, also one that is no string. -/
theorem exists_key (key : Option String) :
    ∃ text pieces, SpellsString text pieces ∧ stringOf? pieces = key := by
  cases key with
  | none =>
    have hn : hexValue4? 'd' '8' '0' '0' = some 0xD800 := by decide
    exact ⟨_, _, .unit hn .nil, by decide⟩
  | some s =>
    obtain ⟨pieces, hspells, hpieces⟩ := exists_pieces s
    exact ⟨_, pieces, hspells, hpieces⟩

/-- An array has a text if and only if each of its items has one. -/
theorem Tree.spelled_array_iff {items : List Tree} :
    (Tree.array items).Spelled ↔ ∀ t ∈ items, t.Spelled := by
  constructor
  · rintro ⟨text, h⟩
    -- A scalar may stand for an unreadable tree, but for no array.
    generalize htree : Tree.array items = t at h
    cases h with
    | @number _ n => cases hn : n.value? <;> simp [hn, ofNumber?] at htree
    | @string _ pieces => cases hs : stringOf? pieces <;> simp [hs, ofString?] at htree
    | emptyArray =>
      cases htree
      exact List.forall_mem_nil _
    | array _ h =>
      cases htree
      exact List.forall_mem_map.2 fun i hi => ⟨i.text, h i hi⟩
    | _ => cases htree
  · intro h
    obtain ⟨is, rfl, his⟩ : ∃ is : List Item, is.map Item.tree = items ∧
        ∀ i ∈ is, SpellsTree i.text i.tree := by
      induction items with
      | nil => exact ⟨[], rfl, List.forall_mem_nil _⟩
      | cons t ts ih =>
        obtain ⟨⟨text, ht⟩, hts⟩ := List.forall_mem_cons.1 h
        obtain ⟨is, rfl, his⟩ := ih hts
        exact ⟨⟨[], text, [], t, blank_nil, blank_nil⟩ :: is, rfl, List.forall_mem_cons.2 ⟨ht, his⟩⟩
    by_cases hne : is = []
    · rw [hne]
      exact ⟨_, .emptyArray blank_nil⟩
    · exact ⟨_, .array hne his⟩

/-- A table has a text if and only if each of its entries has one. -/
theorem Tree.spelled_table_iff {entries : List (Option String × Tree)} :
    (Tree.table entries).Spelled ↔ ∀ e ∈ entries, e.2.Spelled := by
  constructor
  · rintro ⟨text, h⟩
    generalize htree : Tree.table entries = t at h
    cases h with
    | @number _ n => cases hn : n.value? <;> simp [hn, ofNumber?] at htree
    | @string _ pieces => cases hs : stringOf? pieces <;> simp [hs, ofString?] at htree
    | emptyTable =>
      cases htree
      exact List.forall_mem_nil _
    | table _ h =>
      cases htree
      exact List.forall_mem_map.2 fun e he => ⟨e.text, h e he⟩
    | _ => cases htree
  · intro h
    obtain ⟨es, rfl, hes⟩ : ∃ es : List Entry, es.map Entry.entry = entries ∧
        ∀ e ∈ es, SpellsTree e.text e.tree := by
      induction entries with
      | nil => exact ⟨[], rfl, List.forall_mem_nil _⟩
      | cons e rest ih =>
        obtain ⟨⟨text, ht⟩, hrest⟩ := List.forall_mem_cons.1 h
        obtain ⟨es, rfl, hes⟩ := ih hrest
        obtain ⟨key, pieces, hkey, hpieces⟩ := exists_key e.1
        let entry : Entry :=
          { before := [], text := text, after := [], tree := e.2, blank_before := blank_nil,
            blank_after := blank_nil, gap := [], key := key, pieces := pieces, colon := [],
            blank_gap := blank_nil, spells_key := hkey, blank_colon := blank_nil }
        have hentry : entry.entry = e := Prod.ext hpieces rfl
        refine ⟨entry :: es, ?_, List.forall_mem_cons.2 ⟨ht, hes⟩⟩
        rw [List.map_cons, hentry]
    by_cases hne : es = []
    · rw [hne]
      exact ⟨_, .emptyTable blank_nil⟩
    · exact ⟨_, .table hne hes⟩

/-- A tree that has a text is that of some document. -/
theorem Tree.Spelled.exists_document {t : Tree} (h : t.Spelled) :
    ∃ text, SpellsDocument text t := by
  obtain ⟨text, ht⟩ := h
  refine ⟨.ofList text, ⟨[], text, [], t, blank_nil, blank_nil⟩, ?_, rfl, ht⟩
  rw [String.toList_ofList, Item.full, List.nil_append, List.append_nil]

end Json

/-! ## Variants of arrays -/

namespace Json.Tree

/-- A change of one item of an array. -/
inductive ItemVariant (R : Tree → Tree → Prop) : Tree → Tree → Prop
  | item (before after : List Tree) {x x' : Tree} (h : R x x') :
      ItemVariant R (.array (before ++ x :: after)) (.array (before ++ x' :: after))

variable {α : Type} {read : Tree → Except Fault α} {R : Tree → Tree → Prop}

theorem each_middle {before after : List Tree} {x x' : Tree} {vs : List α}
    (h : ∀ v, read x = .ok v → read x' = .ok v) (hvs : each read (before ++ x :: after) = .ok vs) :
    each read (before ++ x' :: after) = .ok vs := by
  induction before generalizing vs with
  | nil =>
    obtain ⟨v, hv, hrest⟩ := bind_eq_ok_iff.1 hvs
    exact bind_eq_ok_iff.2 ⟨v, h v hv, hrest⟩
  | cons y before ih =>
    obtain ⟨v, hv, hrest⟩ := bind_eq_ok_iff.1 hvs
    obtain ⟨rest, hrest, hvs⟩ := bind_eq_ok_iff.1 hrest
    exact bind_eq_ok_iff.2 ⟨v, hv, bind_eq_ok_iff.2 ⟨rest, ih hrest, hvs⟩⟩

theorem ItemVariant.spelled {t t' : Tree} (h : ItemVariant R t t')
    (hitem : ∀ x x', R x x' → x.Spelled → x'.Spelled) (ht : t.Spelled) : t'.Spelled := by
  cases h with
  | item _ _ h =>
    simp only [spelled_array_iff, List.forall_mem_append, List.forall_mem_cons] at ht ⊢
    exact ⟨ht.1, hitem _ _ h ht.2.1, ht.2.2⟩

/-- A list is read from an array with a changed item, if the item is. -/
theorem ItemVariant.each {t t' : Tree} {vs : List α} (h : ItemVariant R t t')
    (hread : ∀ x x' v, R x x' → read x = .ok v → read x' = .ok v)
    (hvs : (do each read (← t.asSequence)) = .ok vs) :
    (do each read (← t'.asSequence)) = .ok vs := by
  cases h with
  | item _ _ h => exact each_middle (fun v => hread _ _ v h) hvs

end Json.Tree

/-! ## Variants of records -/

variable {F : Type} [DecidableEq F] {T : F → Type}

/-- One change of a tree from which a record is read. For some fields there are trees that stand for
the default, and changes of what is inside. -/
inductive Record.Variant (r : Record F) (default : F → Tree → Prop)
    (inside : F → Tree → Tree → Prop) : Tree → Tree → Prop
  | insert (before after : List (Option String × Tree)) {key : String} {text : List Char} {x : Tree}
      (hkey : key ∉ r.names) (hx : SpellsTree text x) :
      Variant r default inside (.table (before ++ after))
        (.table (before ++ (some key, x) :: after))
  | permute {es es' : List (Option String × Tree)} (h : es.Perm es') :
      Variant r default inside (.table es) (.table es')
  | leaveOut (before after : List (Option String × Tree)) (f : F) {x : Tree} (hx : default f x) :
      Variant r default inside (.table (before ++ (some (r.name f), x) :: after))
        (.table (before ++ after))
  | fillIn (before after : List (Option String × Tree)) (f : F) {x : Tree} (hx : default f x)
      (habsent : some (r.name f) ∉ (before ++ after).map Prod.fst) :
      Variant r default inside (.table (before ++ after))
        (.table (before ++ (some (r.name f), x) :: after))
  | entry (before after : List (Option String × Tree)) (f : F) {x x' : Tree} (h : inside f x x') :
      Variant r default inside (.table (before ++ (some (r.name f), x) :: after))
        (.table (before ++ (some (r.name f), x') :: after))
  | item (before after : List Tree) {f : F} {x x' : Tree}
      (hf : r.fields[before.length]? = some f) (h : inside f x x') :
      Variant r default inside (.array (before ++ x :: after)) (.array (before ++ x' :: after))

namespace Record

omit [DecidableEq F] in
/-- A variant of a tree that has a text has one too. -/
theorem Variant.spelled {r : Record F} {default : F → Tree → Prop}
    {inside : F → Tree → Tree → Prop} {t t' : Tree} (h : r.Variant default inside t t')
    (hdefault : ∀ f x, default f x → x.Spelled)
    (hinside : ∀ f x x', inside f x x' → x.Spelled → x'.Spelled) (ht : t.Spelled) : t'.Spelled := by
  cases h with
  | permute h =>
    rw [Tree.spelled_table_iff] at ht ⊢
    exact fun e he => ht e (h.mem_iff.2 he)
  | insert _ _ _ hx =>
    simp only [Tree.spelled_table_iff, List.forall_mem_append, List.forall_mem_cons] at ht ⊢
    exact ⟨ht.1, ⟨_, hx⟩, ht.2⟩
  | leaveOut _ _ f hx =>
    simp only [Tree.spelled_table_iff, List.forall_mem_append, List.forall_mem_cons] at ht ⊢
    exact ⟨ht.1, ht.2.2⟩
  | fillIn _ _ f hx =>
    simp only [Tree.spelled_table_iff, List.forall_mem_append, List.forall_mem_cons] at ht ⊢
    exact ⟨ht.1, hdefault f _ hx, ht.2⟩
  | entry _ _ f h =>
    simp only [Tree.spelled_table_iff, List.forall_mem_append, List.forall_mem_cons] at ht ⊢
    exact ⟨ht.1, hinside f _ _ h ht.2.1, ht.2.2⟩
  | item before after _ h =>
    exact (Tree.ItemVariant.item before after h).spelled (fun _ _ h => hinside _ _ _ h) ht

section

variable {r : Record F} {how : Reading Fault Tree T} {p q : Partial T} {f : F}

omit [DecidableEq F] in
/-- A key that is no name is the key of no field. -/
theorem field?_eq_none {key : String} (h : key ∉ r.names) : r.field? key = none := by
  rw [field?, List.find?_eq_none]
  intro f hf hkey
  exact h (List.mem_map.2 ⟨f, hf, beq_iff_eq.1 hkey⟩)

/-- An item may be replaced by one that is read in the same way. -/
theorem addItems_replace {x x' : Tree} (h : ∀ v, how.field f x = .ok v → how.field f x' = .ok v)
    {fs : List F} {before after : List Tree} (hf : fs[before.length]? = some f)
    (hq : addItems how p fs (before ++ x :: after) = .ok q) :
    addItems how p fs (before ++ x' :: after) = .ok q := by
  induction before generalizing p fs with
  | nil =>
    cases fs with
    | nil => cases hf
    | cons g fs =>
      cases hf
      obtain ⟨v, hv, hq⟩ := bind_eq_ok_iff.1 hq
      exact bind_eq_ok_iff.2 ⟨v, h v hv, hq⟩
  | cons y before ih =>
    cases fs with
    | nil => cases hf
    | cons g fs =>
      obtain ⟨v, hv, hq⟩ := bind_eq_ok_iff.1 hq
      exact bind_eq_ok_iff.2 ⟨v, hv, ih hf hq⟩

end

variable {r : Record F} {how : Reading Fault Tree T} {default : F → Tree → Prop}
  {inside : F → Tree → Tree → Prop} {absent : (f : F) → Option (T f)} {t t' : Tree}
  {fields : Fields T}

/-- The entries of a table, as a record is read from them. -/
def keyed (es : List (Option String × Tree)) : List (Except Fault String × Tree) :=
  es.map fun e => (Tree.key e.1, e.2)

theorem addEntries_keyed_iff {before after : List (Option String × Tree)} {key : String} {x : Tree}
    {p q : Partial T} :
    r.addEntries how p (keyed (before ++ (some key, x) :: after)) = .ok q ↔
      ∃ p', r.Adds how p (.ok key, x) p' ∧
        r.addEntries how p' (keyed (before ++ after)) = .ok q := by
  rw [keyed, keyed, List.map_append, List.map_append, List.map_cons]
  exact addEntries_middle_iff

/-- A default makes no difference, whether it is there or not. -/
theorem or_set {q : Partial T} {f : F} {v : T f} (hq : q f = none) (habsent : absent f = some v)
    (g : F) : (q.set f v g).or (absent g) = (q g).or (absent g) := by
  by_cases h : f = g
  · subst h
    rw [Partial.set_same, hq, habsent]
    rfl
  · rw [Partial.set_of_ne q h]

theorem record_table_eq_ok_iff {es : List (Option String × Tree)} :
    (Tree.table es).record r how = .ok fields ↔
      ∃ q, r.addEntries how .empty (keyed es) = .ok q ∧
        fields = ⟨q, fun f => .missingField (r.name f)⟩ := by
  rw [Tree.record, ofEntries, bind_eq_ok_iff]
  exact exists_congr fun q => and_congr_right fun _ => pure_eq_ok_iff

/-- A field whose key does not occur is not read. -/
theorem addEntries_keyed_of_absent (hname : ∀ f, r.field? (r.name f) = some f) {p q : Partial T}
    {es : List (Option String × Tree)} (h : r.addEntries how p (keyed es) = .ok q) {f : F}
    (hf : some (r.name f) ∉ es.map Prod.fst) : q f = p f := by
  refine addEntries_of_absent h (List.forall_mem_map.2 fun e he key hkey hfield => hf ?_)
  obtain ⟨_ | key, y⟩ := e
  · cases hkey
  · cases hkey
    rw [field?_eq_some_iff hname] at hfield
    exact List.mem_map.2 ⟨_, he, congrArg some hfield⟩

/-- No key of a field occurs twice. -/
theorem addEntries_keyed_repeated (hname : ∀ f, r.field? (r.name f) = some f) {p q : Partial T}
    {before middle after : List (Option String × Tree)} {f : F} {x y : Tree} :
    r.addEntries how p (keyed (before ++ (some (r.name f), x) ::
      (middle ++ (some (r.name f), y) :: after))) ≠ .ok q := by
  rw [keyed, List.map_append, List.map_cons, List.map_append, List.map_cons]
  exact addEntries_repeated (hname f)

/-- A record is read from a variant, and holds the same up to defaults. -/
theorem Variant.record (hname : ∀ f, r.field? (r.name f) = some f)
    (hother : ∀ key text x, SpellsTree text x → how.other key x = .ok ())
    (hdefault : ∀ f x, default f x → ∃ v, how.field f x = .ok v ∧ absent f = some v)
    (hinside : ∀ f x x', inside f x x' → ∀ v, how.field f x = .ok v → how.field f x' = .ok v)
    (h : r.Variant default inside t t') (ht : t.record r how = .ok fields) :
    ∃ fields', t'.record r how = .ok fields' ∧
      ∀ f, (fields'.values f).or (absent f) = (fields.values f).or (absent f) := by
  cases h with
  | @insert before after key text x hkey hx =>
    obtain ⟨q, hq, rfl⟩ := record_table_eq_ok_iff.1 ht
    refine ⟨_, record_table_eq_ok_iff.2 ⟨q, addEntries_keyed_iff.2 ?_, rfl⟩, fun _ => rfl⟩
    exact ⟨.empty, .other (field?_eq_none hkey) (hother key text x hx), hq⟩
  | permute h =>
    obtain ⟨q, hq, rfl⟩ := record_table_eq_ok_iff.1 ht
    exact ⟨_, record_table_eq_ok_iff.2 ⟨q, addEntries_perm (h.map _) hq, rfl⟩, fun _ => rfl⟩
  | leaveOut before after f hx =>
    -- Without the entry, nothing sets the field, and the other fields hold the same.
    obtain ⟨_, hq, rfl⟩ := record_table_eq_ok_iff.1 ht
    obtain ⟨_, hadds, hq⟩ := addEntries_keyed_iff.1 hq
    obtain ⟨-, v, hv, rfl⟩ := (adds_field_iff (hname f)).1 hadds
    obtain ⟨q, hrest, hnone, rfl⟩ := (addEntries_set_iff rfl).1 hq
    obtain ⟨_, hv', habsent⟩ := hdefault f _ hx
    cases hv.symm.trans hv'
    exact ⟨_, record_table_eq_ok_iff.2 ⟨q, hrest, rfl⟩, fun g => (or_set hnone habsent g).symm⟩
  | fillIn before after f hx hkeys =>
    -- No other entry sets the field, so there is room for the new one.
    obtain ⟨q, hq, rfl⟩ := record_table_eq_ok_iff.1 ht
    obtain ⟨v, hv, habsent⟩ := hdefault f _ hx
    have hnone : q f = none := addEntries_keyed_of_absent hname hq hkeys
    refine ⟨_, record_table_eq_ok_iff.2 ⟨q.set f v, addEntries_keyed_iff.2 ?_, rfl⟩,
      or_set hnone habsent⟩
    exact ⟨_, .field (hname f) rfl hv, (addEntries_set_iff rfl).2 ⟨q, hq, hnone, rfl⟩⟩
  | entry before after f h =>
    obtain ⟨q, hq, rfl⟩ := record_table_eq_ok_iff.1 ht
    obtain ⟨_, hadds, hq⟩ := addEntries_keyed_iff.1 hq
    obtain ⟨hnone, v, hv, rfl⟩ := (adds_field_iff (hname f)).1 hadds
    refine ⟨_, record_table_eq_ok_iff.2 ⟨q, addEntries_keyed_iff.2 ?_, rfl⟩, fun _ => rfl⟩
    exact ⟨_, .field (hname f) hnone (hinside f _ _ h v hv), hq⟩
  | @item before after f x x' hf h =>
    obtain ⟨q, hq, hlength⟩ := bind_eq_ok_iff.1 ht
    have hsame : (before ++ x' :: after).length = (before ++ x :: after).length := by
      simp only [List.length_append, List.length_cons]
    rw [← hsame] at hlength
    exact ⟨fields, bind_eq_ok_iff.2 ⟨q, addItems_replace (hinside f x x' h) hf hq, hlength⟩,
      fun _ => rfl⟩

/-- What the fields of a record hold, or else their defaults, is read from a variant too. -/
theorem Variant.exists_record {held : (f : F) → T f} (hname : ∀ f, r.field? (r.name f) = some f)
    (hother : ∀ key text x, SpellsTree text x → how.other key x = .ok ())
    (hdefault : ∀ f x, default f x → ∃ v, how.field f x = .ok v ∧ absent f = some v)
    (hinside : ∀ f x x', inside f x x' → ∀ v, how.field f x = .ok v → how.field f x' = .ok v)
    (h : r.Variant default inside t t')
    (ht : ∃ fields, t.record r how = .ok fields ∧
      ∀ f, (fields.values f).or (absent f) = some (held f)) :
    ∃ fields, t'.record r how = .ok fields ∧
      ∀ f, (fields.values f).or (absent f) = some (held f) := by
  obtain ⟨fields, hfields, hheld⟩ := ht
  obtain ⟨fields', hfields', hsame⟩ := h.record hname hother hdefault hinside hfields
  exact ⟨fields', hfields', fun f => (hsame f).trans (hheld f)⟩

end Record

end TestSelection
