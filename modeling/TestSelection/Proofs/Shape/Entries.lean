import TestSelection.Proofs.Shape.Record

/-!
# Entries in any order

What entries add to a record one by one (`Record.Adds`). An entry that is no field adds nothing, and
an entry of a field adds its value, if there was none. So two entries next to each other can change
places (`Record.Adds.swap`), and a record is read in the same way from its entries in any order
(`Record.addEntries_perm`).

An entry can then be moved to the front, where it is seen what the record is without it: nothing is
lost with an entry that is no field, and only one value with an entry of a field
(`Record.addEntries_set_iff`).
-/

namespace TestSelection

variable {F : Type} [DecidableEq F] {T : F → Type} {ε node : Type}

theorem Partial.set_eq_none_iff {p : Partial T} {f g : F} {x : T f} :
    p.set f x g = none ↔ f ≠ g ∧ p g = none := by
  by_cases h : f = g
  · subst h
    simp [set_same]
  · simp [set_of_ne p h, h]

theorem Partial.set_comm {p : Partial T} {f g : F} (h : f ≠ g) (x : T f) (y : T g) :
    (p.set f x).set g y = (p.set g y).set f x := by
  funext i
  by_cases hf : f = i
  · subst hf
    rw [set_same, set_of_ne _ h.symm, set_same]
  · by_cases hg : g = i
    · subst hg
      rw [set_same, set_of_ne _ hf, set_same]
    · rw [set_of_ne _ hg, set_of_ne _ hf, set_of_ne _ hf, set_of_ne _ hg]

namespace Record

variable {r : Record F} {how : Reading ε node T} {p p' q : Partial T}
  {e e' : Except ε String × node} {es es' : List (Except ε String × node)} {f : F}

/-- What an entry adds to a record. -/
inductive Adds (r : Record F) (how : Reading ε node T) (p : Partial T) :
    Except ε String × node → Partial T → Prop
  | other {key : String} {x : node} (hkey : r.field? key = none) (hx : how.other key x = .ok ()) :
      Adds r how p (.ok key, x) p
  | field {key : String} {x : node} {f : F} {v : T f} (hkey : r.field? key = some f)
      (hp : p f = none) (hx : how.field f x = .ok v) : Adds r how p (.ok key, x) (p.set f v)

theorem adds_field_iff {key : String} {x : node} (hkey : r.field? key = some f) :
    r.Adds how p (.ok key, x) p' ↔
      p f = none ∧ ∃ v, how.field f x = .ok v ∧ p' = p.set f v := by
  constructor
  · intro h
    cases h with
    | other hkey' => cases hkey.symm.trans hkey'
    | field hkey' hp hx =>
      cases hkey.symm.trans hkey'
      exact ⟨hp, _, hx, rfl⟩
  · rintro ⟨hp, v, hx, rfl⟩
    exact .field hkey hp hx

theorem addEntries_nil_iff : r.addEntries how p [] = .ok q ↔ q = p := pure_eq_ok_iff

theorem addEntries_cons_iff :
    r.addEntries how p (e :: es) = .ok q ↔
      ∃ p', r.Adds how p e p' ∧ r.addEntries how p' es = .ok q := by
  obtain ⟨key, x⟩ := e
  rw [addEntries, bind_eq_ok_iff]
  constructor
  · rintro ⟨key, rfl, h⟩
    cases hkey : r.field? key with
    | none =>
      rw [hkey] at h
      obtain ⟨_, hx, h⟩ := bind_eq_ok_iff.1 h
      exact ⟨p, .other hkey hx, h⟩
    | some f =>
      rw [hkey] at h
      cases hp : p f with
      | some v => simp [hp] at h
      | none =>
        simp only [hp, Option.isSome_none, Bool.false_eq_true, if_false] at h
        obtain ⟨v, hx, h⟩ := bind_eq_ok_iff.1 h
        exact ⟨p.set f v, .field hkey hp hx, h⟩
  · rintro ⟨p', hadds, h⟩
    cases hadds with
    | @other key _ hkey hx =>
      refine ⟨key, rfl, ?_⟩
      rw [hkey]
      exact bind_eq_ok_iff.2 ⟨(), hx, h⟩
    | @field key _ f v hkey hp hx =>
      refine ⟨key, rfl, ?_⟩
      rw [hkey]
      simp only [hp, Option.isSome_none, Bool.false_eq_true, if_false]
      exact bind_eq_ok_iff.2 ⟨v, hx, h⟩

/-- What a record holds stays. -/
theorem Adds.keeps (h : r.Adds how p e p') {v : T f} (hp : p f = some v) : p' f = some v := by
  cases h with
  | other => exact hp
  | @field _ _ g _ _ hg _ =>
    have hne : g ≠ f := by
      rintro rfl
      cases hg.symm.trans hp
    rw [Partial.set_of_ne p hne, hp]

theorem addEntries_keeps (h : r.addEntries how p es = .ok q) {v : T f} (hp : p f = some v) :
    q f = some v := by
  induction es generalizing p with
  | nil =>
    cases h
    exact hp
  | cons e es ih =>
    obtain ⟨p', hadds, h⟩ := addEntries_cons_iff.1 h
    exact ih h (hadds.keeps hp)

/-- Entries can change places. -/
theorem Adds.swap (h : r.Adds how p e p') (h' : r.Adds how p' e' q) :
    ∃ p'', r.Adds how p e' p'' ∧ r.Adds how p'' e q := by
  cases h with
  | other hkey hx =>
    cases h' with
    | other hkey' hx' => exact ⟨p, .other hkey' hx', .other hkey hx⟩
    | field hkey' hp' hx' => exact ⟨_, .field hkey' hp' hx', .other hkey hx⟩
  | @field _ _ f v hkey hp hx =>
    cases h' with
    | other hkey' hx' => exact ⟨p, .other hkey' hx', .field hkey hp hx⟩
    | @field _ _ g w hkey' hp' hx' =>
      obtain ⟨hne, hp'⟩ := Partial.set_eq_none_iff.1 hp'
      refine ⟨p.set g w, .field hkey' hp' hx', ?_⟩
      rw [Partial.set_comm hne]
      exact .field hkey (Partial.set_eq_none_iff.2 ⟨hne.symm, hp⟩) hx

/-- The order of entries makes no difference. -/
theorem addEntries_perm (h : es.Perm es') :
    r.addEntries how p es = .ok q → r.addEntries how p es' = .ok q := by
  induction h generalizing p with
  | nil => exact id
  | cons e _ ih =>
    simp only [addEntries_cons_iff]
    rintro ⟨p', he, hes⟩
    exact ⟨p', he, ih hes⟩
  | swap e e' es =>
    simp only [addEntries_cons_iff]
    rintro ⟨p₁, he', p₂, he, hes⟩
    obtain ⟨p₃, he, he'⟩ := he'.swap he
    exact ⟨p₃, he, p₂, he', hes⟩
  | trans _ _ ih ih' => exact fun hes => ih' (ih hes)

theorem addEntries_middle_iff {before after : List (Except ε String × node)} :
    r.addEntries how p (before ++ e :: after) = .ok q ↔
      ∃ p', r.Adds how p e p' ∧ r.addEntries how p' (before ++ after) = .ok q := by
  rw [← addEntries_cons_iff]
  exact ⟨addEntries_perm List.perm_middle, addEntries_perm List.perm_middle.symm⟩

/-- Entries of other fields and one value are added in any order. -/
theorem addEntries_set_iff {v : T f} (hp : p f = none) :
    r.addEntries how (p.set f v) es = .ok q ↔
      ∃ q', r.addEntries how p es = .ok q' ∧ q' f = none ∧ q = q'.set f v := by
  induction es generalizing p with
  | nil =>
    simp only [addEntries_nil_iff]
    constructor
    · rintro rfl
      exact ⟨p, rfl, hp, rfl⟩
    · rintro ⟨q', rfl, -, rfl⟩
      rfl
  | cons e es ih =>
    simp only [addEntries_cons_iff]
    constructor
    · rintro ⟨p', hadds, hes⟩
      cases hadds with
      | other hkey hx =>
        obtain ⟨q', hq', hf, rfl⟩ := (ih hp).1 hes
        exact ⟨q', ⟨p, .other hkey hx, hq'⟩, hf, rfl⟩
      | @field _ _ g w hkey hpg hx =>
        obtain ⟨hne, hpg⟩ := Partial.set_eq_none_iff.1 hpg
        rw [Partial.set_comm hne] at hes
        obtain ⟨q', hq', hf, rfl⟩ := (ih (Partial.set_eq_none_iff.2 ⟨hne.symm, hp⟩)).1 hes
        exact ⟨q', ⟨_, .field hkey hpg hx, hq'⟩, hf, rfl⟩
    · rintro ⟨q', ⟨p', hadds, hes⟩, hf, rfl⟩
      cases hadds with
      | other hkey hx => exact ⟨_, .other hkey hx, (ih hp).2 ⟨q', hes, hf, rfl⟩⟩
      | @field _ _ g w hkey hpg hx =>
        have hne : g ≠ f := by
          rintro rfl
          cases hf.symm.trans (addEntries_keeps hes (p.set_same g w))
        refine ⟨_, .field hkey (Partial.set_eq_none_iff.2 ⟨hne.symm, hpg⟩) hx, ?_⟩
        rw [Partial.set_comm hne.symm]
        exact (ih (Partial.set_eq_none_iff.2 ⟨hne, hp⟩)).2 ⟨q', hes, hf, rfl⟩

/-! ## Fields without entries -/

/-- A field without an entry holds what it held before. -/
theorem addEntries_of_absent (h : r.addEntries how p es = .ok q)
    (habsent : ∀ e ∈ es, ∀ key, e.1 = .ok key → r.field? key ≠ some f) : q f = p f := by
  induction es generalizing p with
  | nil =>
    cases h
    rfl
  | cons e es ih =>
    obtain ⟨p', hadds, h⟩ := addEntries_cons_iff.1 h
    obtain ⟨he, hes⟩ := List.forall_mem_cons.1 habsent
    rw [ih h hes]
    cases hadds with
    | other => rfl
    | @field key _ g v hkey _ _ =>
      have hne : g ≠ f := by
        rintro rfl
        exact he key rfl hkey
      exact Partial.set_of_ne p hne v

/-! ## Each entry -/

/-- If a record was read, each entry of a field was, and the record holds its value. -/
theorem exists_of_mem {key : String} {x : node} (h : r.addEntries how p es = .ok q)
    (hx : (.ok key, x) ∈ es) (hkey : r.field? key = some f) :
    p f = none ∧ ∃ v, how.field f x = .ok v ∧ q f = some v := by
  obtain ⟨before, after, rfl⟩ := List.append_of_mem hx
  obtain ⟨_, hadds, hrest⟩ := addEntries_middle_iff.1 h
  obtain ⟨hp, v, hv, rfl⟩ := (adds_field_iff hkey).1 hadds
  exact ⟨hp, v, hv, addEntries_keeps hrest (p.set_same f v)⟩

/-- No field has two entries. -/
theorem addEntries_repeated {before middle after : List (Except ε String × node)}
    {key : String} {x y : node} (hkey : r.field? key = some f) :
    r.addEntries how p (before ++ (.ok key, x) :: (middle ++ (.ok key, y) :: after)) ≠ .ok q := by
  intro h
  obtain ⟨_, hadds, hrest⟩ := addEntries_middle_iff.1 h
  obtain ⟨-, v, -, rfl⟩ := (adds_field_iff hkey).1 hadds
  have hy : (.ok key, y) ∈ before ++ (middle ++ (.ok key, y) :: after) :=
    List.mem_append_right before (List.mem_append_right middle List.mem_cons_self)
  obtain ⟨hnone, -⟩ := exists_of_mem hrest hy hkey
  cases hnone.symm.trans (p.set_same f v)

/-! ## Fields without items -/

theorem addItems_frame {fs : List F} {items : List node} (h : addItems how p fs items = .ok q)
    (hf : f ∉ fs) : q f = p f := by
  induction items generalizing p fs with
  | nil =>
    cases fs <;> (cases h; rfl)
  | cons x items ih =>
    cases fs with
    | nil =>
      cases h
      rfl
    | cons g fs =>
      obtain ⟨v, -, h⟩ := bind_eq_ok_iff.1 h
      rw [ih h (List.not_mem_of_not_mem_cons hf),
        Partial.set_of_ne p (List.ne_of_not_mem_cons hf).symm]

theorem addItems_take {fs : List F} {items : List node} :
    addItems how p (fs.take items.length) items = addItems how p fs items := by
  induction items generalizing p fs with
  | nil => cases fs <;> rfl
  | cons x items ih =>
    cases fs with
    | nil => rfl
    | cons f fs => simp only [List.length_cons, List.take_succ_cons, addItems, ih]

/-- A field that comes after the last item holds what it held before. -/
theorem addItems_of_absent {fs : List F} {items : List node} (h : addItems how p fs items = .ok q)
    (hf : f ∉ fs.take items.length) : q f = p f := by
  rw [← addItems_take] at h
  exact addItems_frame h hf

end Record

end TestSelection
