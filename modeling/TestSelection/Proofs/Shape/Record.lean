import TestSelection.Proofs.Results
import TestSelection.Shape.OfValue

/-!
# What a record holds

Reading a record that was written gives what was written: `Record.ofEntries_written` reads entries
that were made field by field, and the result holds the value of each field that has an entry.

Whatever the entries or the items are, a record holds nothing but what was read from them
(`Record.forall_ofEntries`, `Record.forall_ofItems`). So a fact about all parts of a document
carries over to the records in it. Records with a tag have the same two properties.
-/

namespace TestSelection

variable {F : Type} [DecidableEq F] {T : F → Type} {ε node : Type}

/-! ## Partial records -/

namespace Partial

theorem set_same (p : Partial T) (f : F) (x : T f) : p.set f x f = some x := by
  rw [set, dif_pos rfl]

theorem set_of_ne (p : Partial T) {f g : F} (h : f ≠ g) (x : T f) : p.set f x g = p g := by
  rw [set, dif_neg h]

/-- The record that holds the values of the given fields. -/
def holding (fs : List F) (values : (f : F) → T f) : Partial T :=
  fun f => if f ∈ fs then some (values f) else none

end Partial

namespace Record

/-! ## Reading what was written -/

/-- The entries of the given fields. -/
def written (r : Record F) (fs : List F) (nodes : F → node) : List (Except ε String × node) :=
  fs.map fun f => (.ok (r.name f), nodes f)

variable {r : Record F} {how : Reading ε node T} {fs : List F} {nodes : F → node}
  {values : (f : F) → T f}

theorem addEntries_written {p : Partial T} (hfs : fs.Nodup)
    (hname : ∀ f ∈ fs, r.field? (r.name f) = some f) (hp : ∀ f ∈ fs, p f = none)
    (hread : ∀ f ∈ fs, how.field f (nodes f) = .ok (values f)) :
    r.addEntries how p (written r fs nodes) =
      .ok fun f => if f ∈ fs then some (values f) else p f := by
  induction fs generalizing p with
  | nil => rfl
  | cons f fs ih =>
    obtain ⟨hf, hfs⟩ := List.nodup_cons.1 hfs
    obtain ⟨hnamef, hname⟩ := List.forall_mem_cons.1 hname
    obtain ⟨hpf, hp⟩ := List.forall_mem_cons.1 hp
    obtain ⟨hreadf, hread⟩ := List.forall_mem_cons.1 hread
    have hset : ∀ g ∈ fs, p.set f (values f) g = none := by
      intro g hg
      have hne : f ≠ g := fun h => hf (h ▸ hg)
      rw [Partial.set_of_ne p hne, hp g hg]
    have hstep : r.addEntries how p (written r (f :: fs) nodes) =
        r.addEntries how (p.set f (values f)) (written r fs nodes) := by
      simp [written, addEntries, bind, Except.bind, hnamef, hpf, hreadf]
    rw [hstep, ih hfs hname hset hread]
    congr 1
    funext g
    by_cases hg : f = g
    · subst hg
      simp [hf, Partial.set_same]
    · simp [Partial.set_of_ne p hg, Ne.symm hg]

/-- Reading the entries of some fields gives the values of these fields. -/
theorem ofEntries_written (hfs : fs.Nodup) (hname : ∀ f ∈ fs, r.field? (r.name f) = some f)
    (hread : ∀ f ∈ fs, how.field f (nodes f) = .ok (values f)) :
    r.ofEntries how (written r fs nodes) =
      .ok ⟨.holding fs values, fun f => .missingField (r.name f)⟩ := by
  have hempty : ∀ f ∈ fs, (Partial.empty : Partial T) f = none := fun _ _ => rfl
  rw [ofEntries, addEntries_written hfs hname hempty hread]
  rfl

theorem required_holding {missing : F → Mismatch} {f : F} (hf : f ∈ fs) :
    (⟨.holding fs values, missing⟩ : Fields T).required f = .ok (values f) := by
  simp [Fields.required, Partial.holding, hf]

theorem optional_holding {missing : F → Mismatch} {f : F} {absent : T f}
    (h : f ∉ fs → values f = absent) :
    (⟨.holding fs values, missing⟩ : Fields T).optional f absent = values f := by
  by_cases hf : f ∈ fs
  · simp [Fields.optional, Partial.holding, hf]
  · simp [Fields.optional, Partial.holding, hf, h hf]

/-! ## What reading keeps -/

section

variable {P : (f : F) → T f → Prop} {p q : Partial T} {fields : Fields T}

theorem forall_set {f : F} {x : T f} (hx : P f x) (hp : ∀ g y, p g = some y → P g y) :
    ∀ g y, p.set f x g = some y → P g y := by
  intro g y hy
  by_cases hg : f = g
  · subst hg
    rw [Partial.set_same, Option.some_inj] at hy
    exact hy ▸ hx
  · rw [Partial.set_of_ne p hg] at hy
    exact hp g y hy

theorem forall_addEntries {es : List (Except ε String × node)}
    (hread : ∀ e ∈ es, ∀ f x, how.field f e.2 = .ok x → P f x)
    (hp : ∀ f x, p f = some x → P f x) (h : r.addEntries how p es = .ok q) :
    ∀ f x, q f = some x → P f x := by
  induction es generalizing p with
  | nil =>
    cases h
    exact hp
  | cons e es ih =>
    obtain ⟨key, n⟩ := e
    obtain ⟨hreade, hread⟩ := List.forall_mem_cons.1 hread
    obtain ⟨key, -, h⟩ := bind_eq_ok_iff.1 h
    split at h
    · obtain ⟨_, -, h⟩ := bind_eq_ok_iff.1 h
      exact ih hread hp h
    · split_ifs at h
      obtain ⟨x, hx, h⟩ := bind_eq_ok_iff.1 h
      exact ih hread (forall_set (hreade _ x hx) hp) h

theorem forall_addItems {items : List node}
    (hread : ∀ n ∈ items, ∀ f x, how.field f n = .ok x → P f x)
    (hp : ∀ f x, p f = some x → P f x) (h : addItems how p fs items = .ok q) :
    ∀ f x, q f = some x → P f x := by
  induction items generalizing p fs with
  | nil =>
    cases fs <;> (cases h; exact hp)
  | cons n items ih =>
    cases fs with
    | nil =>
      cases h
      exact hp
    | cons f fs =>
      obtain ⟨hreadn, hread⟩ := List.forall_mem_cons.1 hread
      obtain ⟨x, hx, h⟩ := bind_eq_ok_iff.1 h
      exact ih hread (forall_set (hreadn f x hx) hp) h

/-- What holds of all that is read from the entries holds of the values of the record. -/
theorem forall_ofEntries {es : List (Except ε String × node)}
    (hread : ∀ e ∈ es, ∀ f x, how.field f e.2 = .ok x → P f x)
    (h : r.ofEntries how es = .ok fields) : ∀ f x, fields.values f = some x → P f x := by
  obtain ⟨q, hq, h⟩ := bind_eq_ok_iff.1 h
  cases h
  exact forall_addEntries hread (fun _ _ h => by cases h) hq

/-- What holds of all that is read from the items holds of the values of the record. -/
theorem forall_ofItems {items : List node}
    (hread : ∀ n ∈ items, ∀ f x, how.field f n = .ok x → P f x)
    (h : r.ofItems how items = .ok fields) : ∀ f x, fields.values f = some x → P f x := by
  obtain ⟨q, hq, h⟩ := bind_eq_ok_iff.1 h
  split_ifs at h
  cases h
  exact forall_addItems hread (fun _ _ h => by cases h) hq

omit [DecidableEq F] in
/-- What holds of the values of a record and of the value for a missing field holds in any case. -/
theorem forall_optional (h : ∀ f x, fields.values f = some x → P f x) {f : F} {absent : T f}
    (habsent : P f absent) : P f (fields.optional f absent) := by
  unfold Fields.optional
  cases hf : fields.values f with
  | none => exact habsent
  | some x => exact h f x hf

omit [DecidableEq F] in
theorem required_eq_ok_iff {f : F} {x : T f} :
    fields.required f = .ok x ↔ fields.values f = some x := by
  unfold Fields.required
  cases fields.values f <;> simp

omit [DecidableEq F] in
/-- A field that has to be there has no default. -/
theorem required_eq_ok_iff_or {f : F} {x : T f} :
    fields.required f = .ok x ↔ (fields.values f).or none = some x := by
  rw [required_eq_ok_iff, Option.or_none]

omit [DecidableEq F] in
/-- A field that may be left out has a default. -/
theorem optional_eq_iff_or {f : F} {absent x : T f} :
    fields.optional f absent = x ↔ (fields.values f).or (some absent) = some x := by
  rw [Option.or_some, Option.some_inj, Fields.optional]

end

end Record

/-! ## Tagged records -/

namespace Tagged

variable {α : Type} {name : String} {ofTag : node → Except Mismatch α} {t : Tagged α node}
  {r : Record F} {how : Reading Mismatch node T}

/-- Entries with other keys than that of the tag. -/
theorem filter_tag {rest : List (String × node)} (hrest : ∀ e ∈ rest, e.1 ≠ name) :
    rest.filter (fun e => e.1 == name) = [] ∧ rest.filter (fun e => e.1 != name) = rest := by
  rw [List.filter_eq_nil_iff, List.filter_eq_self]
  exact ⟨fun e he => by simpa using hrest e he, fun e he => by simpa using hrest e he⟩

/-- A tag in front of entries with other keys is taken from there. -/
theorem splitEntries_cons {x : node} {tag : α} {rest : List (String × node)}
    (htag : ofTag x = .ok tag) (hrest : ∀ e ∈ rest, e.1 ≠ name) :
    splitEntries name ofTag ((name, x) :: rest) = .ok ⟨tag, .inl rest⟩ := by
  obtain ⟨hnone, hall⟩ := filter_tag hrest
  simp [splitEntries, hnone, hall, htag, bind, Except.bind, pure, Except.pure]

/-- Reading the entries of some fields gives the values of these fields. -/
theorem fields_written {tag : α} {fs : List F} {nodes : F → node} {values : (f : F) → T f}
    (hfs : fs.Nodup) (hname : ∀ f ∈ fs, r.field? (r.name f) = some f)
    (hread : ∀ f ∈ fs, how.field f (nodes f) = .ok (values f)) :
    (⟨tag, .inl (fs.map fun f => (r.name f, nodes f))⟩ : Tagged α node).fields r how =
      .ok ⟨.holding fs values, fun f => .missingField (r.name f)⟩ := by
  have hwritten : (fs.map fun f => (r.name f, nodes f)).map
      (fun e => ((.ok e.1 : Except Mismatch String), e.2)) = r.written fs nodes := by
    rw [List.map_map]
    rfl
  simp only [fields, hwritten]
  exact Record.ofEntries_written hfs hname hread

/-- What belongs to a tag, without the keys. -/
def nodes (t : Tagged α node) : List node :=
  match t.content with
  | .inl entries => entries.map (·.2)
  | .inr items => items

theorem forall_fields {P : (f : F) → T f → Prop} {fields : Record.Fields T}
    (hread : ∀ n ∈ t.nodes, ∀ f x, how.field f n = .ok x → P f x)
    (h : t.fields r how = .ok fields) : ∀ f x, fields.values f = some x → P f x := by
  obtain ⟨tag, entries | items⟩ := t
  · refine Record.forall_ofEntries (fun e he => ?_) h
    obtain ⟨e', he', rfl⟩ := List.mem_map.1 he
    exact hread e'.2 (List.mem_map_of_mem he')
  · exact Record.forall_ofItems hread h

theorem mem_of_splitEntries {entries : List (String × node)}
    (h : splitEntries name ofTag entries = .ok t) {n : node} (hn : n ∈ t.nodes) :
    ∃ e ∈ entries, e.2 = n := by
  unfold splitEntries at h
  split at h
  · cases h
  · obtain ⟨tag, -, h⟩ := bind_eq_ok_iff.1 h
    cases h
    obtain ⟨e, he, rfl⟩ := List.mem_map.1 hn
    exact ⟨e, List.mem_of_mem_filter he, rfl⟩
  · obtain ⟨_, -, h⟩ := bind_eq_ok_iff.1 h
    cases h

theorem mem_of_splitItems {items : List node} (h : splitItems name ofTag items = .ok t) {n : node}
    (hn : n ∈ t.nodes) : n ∈ items := by
  cases items with
  | nil => cases h
  | cons x rest =>
    obtain ⟨tag, -, h⟩ := bind_eq_ok_iff.1 h
    cases h
    exact List.mem_cons_of_mem x hn

end Tagged

end TestSelection
