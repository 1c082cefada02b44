import TestSelection.Proofs.Shape.Entries

/-!
# When a record is read

A record that refuses what is no field of it is read from entries that give its fields, with no key
twice. Then it holds what the entries give, and nothing else (`Record.addEntries_eq_ok_iff`). So a
fact about such records is a fact about the entries as a set: their order makes no difference
(`Record.gives_perm_iff`).

Fields that are required have to have an entry (`Record.ofEntries_required_iff`); optional fields
without one are absent (`Record.ofEntries_optional_iff`). Items have to be one for each required
field, in the order of the fields (`Record.ofItems_required_iff`).

A record that passes over what is no field of it is read as if that were not there
(`Record.ofEntries_filter`). Notes that are made on the way are about these entries alone, and what
is read does not depend on them (`Record.run_ofEntries`).
-/

namespace TestSelection

variable {F : Type} [DecidableEq F] {T : F → Type} {ε node : Type}

omit [DecidableEq F] in
/-- The same reading, but what is no field is passed over without a note. -/
def ReadingIn.forgetting {m : Type → Type} (how : ReadingIn m ε node T) : Reading ε node T :=
  { how with other := fun _ _ => .ok () }

namespace Record

variable {r : Record F} {es : List (String × node)}

omit [DecidableEq F] in
/-- In a record with distinct names, the field of a key is the one with that name. -/
theorem field?_eq_some_iff (hname : ∀ f, r.field? (r.name f) = some f) {key : String} {f : F} :
    r.field? key = some f ↔ key = r.name f := by
  constructor
  · intro h
    rw [field?, List.find?_eq_some_iff_append] at h
    exact (beq_iff_eq.1 h.1).symm
  · rintro rfl
    exact hname f

omit [DecidableEq F] in
theorem name_injective (hname : ∀ f, r.field? (r.name f) = some f) :
    Function.Injective r.name := by
  intro f g h
  rw [← Option.some_inj, ← hname f, h, hname g]

/-! ## Reading entries -/

section

variable {how : Reading ε node T} {p q : Partial T}

theorem addEntries_cons_eq_ok_iff (hname : ∀ f, r.field? (r.name f) = some f)
    (hother : ∀ key x, how.other key x ≠ .ok ()) {key : String} {x : node}
    {rest : List (Except ε String × node)} :
    r.addEntries how p ((.ok key, x) :: rest) = .ok q ↔
      ∃ f v, key = r.name f ∧ p f = none ∧ how.field f x = .ok v ∧
        r.addEntries how (p.set f v) rest = .ok q := by
  rw [addEntries_cons_iff]
  constructor
  · rintro ⟨_, hadds, hrest⟩
    cases hadds with
    | other _ hx => exact absurd hx (hother key x)
    | field hkey hp hx => exact ⟨_, _, (field?_eq_some_iff hname).1 hkey, hp, hx, hrest⟩
  · rintro ⟨f, v, rfl, hp, hx, hrest⟩
    exact ⟨_, .field (hname f) hp hx, hrest⟩

/-- A record that was read from entries holds what they give for their fields, and for the other
fields what it held before. -/
theorem addEntries_eq_ok_iff (hname : ∀ f, r.field? (r.name f) = some f)
    (hother : ∀ key x, how.other key x ≠ .ok ()) :
    r.addEntries how p (es.map fun e => (.ok e.1, e.2)) = .ok q ↔
      (es.map Prod.fst).Nodup ∧
        (∀ e ∈ es, ∃ f v, e.1 = r.name f ∧ p f = none ∧ how.field f e.2 = .ok v ∧
          q f = some v) ∧
        ∀ f, r.name f ∉ es.map Prod.fst → q f = p f := by
  induction es generalizing p with
  | nil =>
    rw [List.map_nil, addEntries_nil_iff]
    simp [funext_iff]
  | cons e es ih =>
    obtain ⟨key, x⟩ := e
    rw [List.map_cons, addEntries_cons_eq_ok_iff hname hother]
    simp only [ih, Partial.set_eq_none_iff, List.map_cons, List.nodup_cons, List.forall_mem_cons]
    constructor
    · rintro ⟨f, v, rfl, hp, hv, hnodup, hfields, hrest⟩
      -- A second entry for the field would have found it set by this one.
      have hnew : r.name f ∉ es.map Prod.fst := by
        intro hmem
        obtain ⟨e, he, hkey⟩ := List.mem_map.1 hmem
        obtain ⟨g, _, hg, ⟨hne, -⟩, -⟩ := hfields e he
        exact hne (name_injective hname (hkey.symm.trans hg))
      refine ⟨⟨hnew, hnodup⟩, ⟨⟨f, v, rfl, hp, hv, ?_⟩, ?_⟩, ?_⟩
      · rw [hrest f hnew, Partial.set_same]
      · intro e he
        obtain ⟨g, w, hg, ⟨-, hpg⟩, hw, hq⟩ := hfields e he
        exact ⟨g, w, hg, hpg, hw, hq⟩
      · intro g hg
        have hne : f ≠ g := fun h => List.ne_of_not_mem_cons hg (h ▸ rfl)
        rw [hrest g (List.not_mem_of_not_mem_cons hg), Partial.set_of_ne p hne]
    · rintro ⟨⟨hnew, hnodup⟩, ⟨⟨f, v, rfl, hp, hv, hq⟩, hfields⟩, hrest⟩
      refine ⟨f, v, rfl, hp, hv, hnodup, ?_, ?_⟩
      · intro e he
        obtain ⟨g, w, hg, hpg, hw, hqg⟩ := hfields e he
        have hne : f ≠ g := by
          rintro rfl
          exact hnew (hg ▸ List.mem_map_of_mem he)
        exact ⟨g, w, hg, ⟨hne, hpg⟩, hw, hqg⟩
      · intro g hg
        by_cases h : f = g
        · subst h
          rw [hq, Partial.set_same]
        · have hne : r.name g ≠ r.name f := fun hkey => h (name_injective hname hkey.symm)
          rw [Partial.set_of_ne p h, hrest g (List.not_mem_cons_of_ne_of_not_mem hne hg)]

end

/-! ## Passing over entries -/

section

variable {m : Type → Type} [Monad m] [LawfulMonad m] [MonadLiftT (Except ε) m]
  [LawfulMonadLiftT (Except ε) m] {how : ReadingIn m ε node T} {p : Partial T}

/-- How an entry with a key is read, in any monad. -/
theorem addEntries_cons_ok {key : String} {x : node} {rest : List (Except ε String × node)} :
    r.addEntries how p ((.ok key, x) :: rest) =
      match r.field? key with
      | none => how.other key x >>= fun _ => r.addEntries how p rest
      | some f =>
        if (p f).isSome then
          liftM (Except.error (how.fault (.duplicateField key)) : Except ε (Partial T))
        else liftM (how.field f x) >>= fun v => r.addEntries how (p.set f v) rest := by
  rw [addEntries]
  exact (congrArg (· >>= _) (liftM_pure key)).trans (pure_bind key _)

end

section

variable {how : Reading ε node T} {p q : Partial T}

/-- A record that passes over what is no field of it is the same without these entries. -/
theorem addEntries_filter (hother : ∀ key x, how.other key x = .ok ())
    (es : List (String × node)) (p : Partial T) :
    r.addEntries how p ((es.filter fun e => (r.field? e.1).isSome).map fun e => (.ok e.1, e.2)) =
      r.addEntries how p (es.map fun e => (.ok e.1, e.2)) := by
  induction es generalizing p with
  | nil => rfl
  | cons e es ih =>
    obtain ⟨key, x⟩ := e
    cases hkey : r.field? key with
    | none =>
      rw [List.filter_cons_of_neg (by simp [hkey]), ih, List.map_cons, addEntries_cons_ok, hkey]
      simp only [hother]
      rfl
    | some f =>
      rw [List.filter_cons_of_pos (by simp [hkey]), List.map_cons, List.map_cons]
      simp only [addEntries_cons_ok, ih]

theorem ofEntries_filter (hother : ∀ key x, how.other key x = .ok ())
    (es : List (String × node)) :
    r.ofEntries how ((es.filter fun e => (r.field? e.1).isSome).map fun e => (.ok e.1, e.2)) =
      r.ofEntries how (es.map fun e => (.ok e.1, e.2)) := by
  rw [ofEntries, addEntries_filter hother, ofEntries]

end

/-! ## Noting entries -/

omit [DecidableEq F] in
/-- The keys that are no names of fields. -/
def unknownKeys (r : Record F) (es : List (String × node)) : List String :=
  (es.map Prod.fst).filter fun key => (r.field? key).isNone

omit [DecidableEq F] in
theorem unknownKeys_cons_of_none {key : String} (x : node) (hkey : r.field? key = none) :
    r.unknownKeys ((key, x) :: es) = key :: r.unknownKeys es :=
  List.filter_cons_of_pos (by simp [hkey])

omit [DecidableEq F] in
theorem unknownKeys_cons_of_some {key : String} {f : F} (x : node) (hkey : r.field? key = some f) :
    r.unknownKeys ((key, x) :: es) = r.unknownKeys es :=
  List.filter_cons_of_neg (by simp [hkey])

section

variable {σ : Type} {how : ReadingIn (StateT σ (Except ε)) ε node T} {note : String → σ → σ}

/-- A reading that notes what it passes over gives what one without notes gives, and a note of each
key that is no name of a field. -/
theorem run_addEntries (hother : ∀ key x, how.other key x = modify (note key))
    (es : List (String × node)) (p : Partial T) (s : σ) :
    (r.addEntries how p (es.map fun e => (.ok e.1, e.2))).run s =
      (r.addEntries how.forgetting p (es.map fun e => (.ok e.1, e.2))).map
        fun q => (q, (r.unknownKeys es).foldl (fun s key => note key s) s) := by
  induction es generalizing p s with
  | nil => rfl
  | cons e es ih =>
    obtain ⟨key, x⟩ := e
    rw [List.map_cons, addEntries_cons_ok, addEntries_cons_ok]
    cases hkey : r.field? key with
    | none =>
      rw [unknownKeys_cons_of_none x hkey, List.foldl_cons]
      simp only [hother]
      exact ih p (note key s)
    | some f =>
      rw [unknownKeys_cons_of_some x hkey]
      by_cases hp : (p f).isSome = true
      · simp only [if_pos hp]
        rfl
      · simp only [if_neg hp]
        -- both read the field, and neither makes a note of it
        show (liftM (how.field f x) >>= fun v => r.addEntries how (p.set f v) _).run s =
          (how.field f x >>= fun v => r.addEntries how.forgetting (p.set f v) _).map _
        cases how.field f x with
        | error e => rfl
        | ok v => exact ih (p.set f v) s

theorem run_ofEntries (hother : ∀ key x, how.other key x = modify (note key))
    (es : List (String × node)) (s : σ) :
    (r.ofEntries how (es.map fun e => (.ok e.1, e.2))).run s =
      (r.ofEntries how.forgetting (es.map fun e => (.ok e.1, e.2))).map
        fun fields => (fields, (r.unknownKeys es).foldl (fun s key => note key s) s) := by
  rw [ofEntries, StateT.run_bind, run_addEntries hother, ofEntries]
  cases r.addEntries how.forgetting .empty (es.map fun e => (.ok e.1, e.2)) with
  | error e => rfl
  | ok q => rfl

end

/-! ## What entries give -/

/-- Each entry gives what one of the fields holds, and no key stands twice. -/
structure Gives (r : Record F) (read : (f : F) → node → Except ε (T f))
    (es : List (String × node)) (values : (f : F) → T f) : Prop where
  nodup : (es.map Prod.fst).Nodup
  field : ∀ e ∈ es, ∃ f, e.1 = r.name f ∧ read f e.2 = .ok (values f)

/-- The entries give what the fields hold, and there is one for each field. -/
structure GivesAll (r : Record F) (read : (f : F) → node → Except ε (T f))
    (es : List (String × node)) (values : (f : F) → T f) : Prop extends
    r.Gives read es values where
  full : ∀ f, r.name f ∈ es.map Prod.fst

omit [DecidableEq F] in
theorem gives_cons_iff (hname : ∀ f, r.field? (r.name f) = some f)
    {read : (f : F) → node → Except ε (T f)} {values : (f : F) → T f} {f : F} {x : node} :
    r.Gives read ((r.name f, x) :: es) values ↔
      r.name f ∉ es.map Prod.fst ∧ read f x = .ok (values f) ∧ r.Gives read es values := by
  constructor
  · rintro ⟨hnodup, hfield⟩
    obtain ⟨hnew, hnodup⟩ := List.nodup_cons.1 hnodup
    obtain ⟨⟨g, hg, hread⟩, hfield⟩ := List.forall_mem_cons.1 hfield
    obtain rfl := name_injective hname hg
    exact ⟨hnew, hread, hnodup, hfield⟩
  · rintro ⟨hnew, hread, hnodup, hfield⟩
    exact ⟨List.nodup_cons.2 ⟨hnew, hnodup⟩, List.forall_mem_cons.2 ⟨⟨f, rfl, hread⟩, hfield⟩⟩

omit [DecidableEq F] in
/-- Every key is the name of a field. -/
theorem Gives.exists_name {read : (f : F) → node → Except ε (T f)} {values : (f : F) → T f}
    (h : r.Gives read es values) {key : String} (hkey : key ∈ es.map Prod.fst) :
    ∃ f, key = r.name f := by
  obtain ⟨e, he, rfl⟩ := List.mem_map.1 hkey
  obtain ⟨f, hf, -⟩ := h.field e he
  exact ⟨f, hf⟩

omit [DecidableEq F] in
theorem gives_perm_iff {read : (f : F) → node → Except ε (T f)} {es' : List (String × node)}
    {values : (f : F) → T f} (h : es.Perm es') :
    r.Gives read es values ↔ r.Gives read es' values := by
  have hkeys : (es.map Prod.fst).Nodup ↔ (es'.map Prod.fst).Nodup :=
    (h.map Prod.fst).nodup_iff
  exact ⟨fun ⟨hnodup, hfield⟩ => ⟨hkeys.1 hnodup, fun e he => hfield e (h.mem_iff.2 he)⟩,
    fun ⟨hnodup, hfield⟩ => ⟨hkeys.2 hnodup, fun e he => hfield e (h.mem_iff.1 he)⟩⟩

omit [DecidableEq F] in
theorem givesAll_perm_iff {read : (f : F) → node → Except ε (T f)} {es' : List (String × node)}
    {values : (f : F) → T f} (h : es.Perm es') :
    r.GivesAll read es values ↔ r.GivesAll read es' values := by
  have hkeys {key : String} : key ∈ es.map Prod.fst ↔ key ∈ es'.map Prod.fst :=
    (h.map Prod.fst).mem_iff
  exact ⟨fun ⟨hgives, hfull⟩ => ⟨(gives_perm_iff h).1 hgives, fun f => hkeys.1 (hfull f)⟩,
    fun ⟨hgives, hfull⟩ => ⟨(gives_perm_iff h).2 hgives, fun f => hkeys.2 (hfull f)⟩⟩

section

variable {how : Reading ε node T} {values : (f : F) → T f}

/-- All fields of a record are there if the entries give all of them. -/
theorem ofEntries_required_iff (hname : ∀ f, r.field? (r.name f) = some f)
    (hother : ∀ key x, how.other key x ≠ .ok ()) :
    (∃ fields, r.ofEntries how (es.map fun e => (.ok e.1, e.2)) = .ok fields ∧
        ∀ f, fields.required f = .ok (values f)) ↔
      r.GivesAll how.field es values := by
  simp only [ofEntries, bind_eq_ok_iff, pure_eq_ok_iff, addEntries_eq_ok_iff hname hother,
    required_eq_ok_iff]
  constructor
  · rintro ⟨_, ⟨q, ⟨hnodup, hfields, hrest⟩, rfl⟩, hq⟩
    refine ⟨⟨hnodup, fun e he => ?_⟩, fun f => ?_⟩
    · obtain ⟨f, v, hf, -, hv, hqf⟩ := hfields e he
      obtain rfl := Option.some_inj.1 (hqf.symm.trans (hq f))
      exact ⟨f, hf, hv⟩
    · by_contra hf
      cases (hrest f hf).symm.trans (hq f)
  · rintro ⟨⟨hnodup, hfields⟩, hkeys⟩
    refine ⟨_, ⟨fun f => some (values f), ⟨hnodup, fun e he => ?_, fun f hf => ?_⟩, rfl⟩,
      fun f => rfl⟩
    · obtain ⟨f, hf, hv⟩ := hfields e he
      exact ⟨f, values f, hf, rfl, hv, rfl⟩
    · exact absurd (hkeys f) hf

/-- The optional fields of a record are what the entries give, and absent without an entry. -/
theorem ofEntries_optional_iff (hname : ∀ f, r.field? (r.name f) = some f)
    (hother : ∀ key x, how.other key x ≠ .ok ()) {absent : (f : F) → T f} :
    (∃ fields, r.ofEntries how (es.map fun e => (.ok e.1, e.2)) = .ok fields ∧
        ∀ f, fields.optional f (absent f) = values f) ↔
      r.Gives how.field es values ∧ ∀ f, r.name f ∉ es.map Prod.fst → values f = absent f := by
  simp only [ofEntries, bind_eq_ok_iff, pure_eq_ok_iff, addEntries_eq_ok_iff hname hother,
    Fields.optional]
  constructor
  · rintro ⟨_, ⟨q, ⟨hnodup, hfields, hrest⟩, rfl⟩, hq⟩
    replace hq : ∀ f, (q f).getD (absent f) = values f := hq
    refine ⟨⟨hnodup, fun e he => ?_⟩, fun f hf => ?_⟩
    · obtain ⟨f, v, hf, -, hv, hqf⟩ := hfields e he
      have hvalue : v = values f := by rw [← hq f, hqf, Option.getD_some]
      exact ⟨f, hf, hvalue ▸ hv⟩
    · rw [← hq f, hrest f hf]
      rfl
  · rintro ⟨⟨hnodup, hfields⟩, hkeys⟩
    refine ⟨_, ⟨fun f => if r.name f ∈ es.map Prod.fst then some (values f) else none,
      ⟨hnodup, fun e he => ?_, fun f hf => if_neg hf⟩, rfl⟩, fun f => ?_⟩
    · obtain ⟨f, hf, hv⟩ := hfields e he
      exact ⟨f, values f, hf, rfl, hv, if_pos (hf ▸ List.mem_map_of_mem he)⟩
    · by_cases hf : r.name f ∈ es.map Prod.fst
      · simp [hf]
      · simp [hf, hkeys f hf]

end

/-! ## Reading items -/

section

variable {how : Reading ε node T} {p q : Partial T} {values : (f : F) → T f} {fs : List F}
  {items : List node}

theorem addItems_required_iff (hfs : fs.Nodup) (hp : ∀ f ∈ fs, p f = none) :
    (∃ q, addItems how p fs items = .ok q ∧ items.length ≤ fs.length ∧
        ∀ f ∈ fs, q f = some (values f)) ↔
      List.Forall₂ (fun f x => how.field f x = .ok (values f)) fs items := by
  induction fs generalizing p items with
  | nil =>
    cases items with
    | nil => simp [addItems]
    | cons x items => simp
  | cons f fs ih =>
    cases items with
    | nil =>
      constructor
      · rintro ⟨q, hq, -, hvalues⟩
        cases hq
        cases (hp f List.mem_cons_self).symm.trans (hvalues f List.mem_cons_self)
      · intro h
        cases h
    | cons x items =>
      obtain ⟨hf, hfs⟩ := List.nodup_cons.1 hfs
      have hset (v : T f) : ∀ g ∈ fs, p.set f v g = none := fun g hg =>
        Partial.set_eq_none_iff.2 ⟨fun h => hf (h ▸ hg), hp g (List.mem_cons_of_mem f hg)⟩
      rw [List.forall₂_cons, ← ih hfs (hset (values f))]
      simp only [addItems, bind_eq_ok_iff, List.length_cons, Nat.add_le_add_iff_right,
        List.forall_mem_cons]
      constructor
      · rintro ⟨q, ⟨v, hv, hq⟩, hlength, hqf, hvalues⟩
        rw [addItems_frame hq hf, Partial.set_same, Option.some_inj] at hqf
        subst hqf
        exact ⟨hv, q, hq, hlength, hvalues⟩
      · rintro ⟨hv, q, hq, hlength, hvalues⟩
        refine ⟨q, ⟨_, hv, hq⟩, hlength, ?_, hvalues⟩
        rw [addItems_frame hq hf, Partial.set_same]

/-- All fields of a record are there if there is an item for each that gives it. -/
theorem ofItems_required_iff (hfields : r.fields.Nodup) (hall : ∀ f, f ∈ r.fields) :
    (∃ fields, r.ofItems how items = .ok fields ∧ ∀ f, fields.required f = .ok (values f)) ↔
      List.Forall₂ (fun f x => how.field f x = .ok (values f)) r.fields items := by
  rw [← addItems_required_iff hfields (p := .empty) fun _ _ => rfl]
  simp only [ofItems, bind_eq_ok_iff, required_eq_ok_iff]
  constructor
  · rintro ⟨_, ⟨q, hq, hfields⟩, hvalues⟩
    split_ifs at hfields with hlength
    cases hfields
    exact ⟨q, hq, Nat.le_of_not_lt hlength, fun f _ => hvalues f⟩
  · rintro ⟨q, hq, hlength, hvalues⟩
    exact ⟨_, ⟨q, hq, if_neg (Nat.not_lt.2 hlength)⟩, fun f => hvalues f (hall f)⟩

end

end Record

/-! ## Tags among entries -/

namespace Tagged

variable {α : Type} {name : String} {ofTag : node → Except Mismatch α}
  {es es' : List (String × node)}

theorem splitEntries_eq :
    splitEntries name ofTag es =
      match (es.filter fun e => e.1 == name).map (fun e => ofTag e.2) with
      | [] => .error (.missingField name)
      | [tag] => do return ⟨← tag, .inl (es.filter fun e => e.1 != name)⟩
      | tag :: _ :: _ => tag >>= fun _ => .error (.duplicateField name) := by
  unfold splitEntries
  generalize es.filter (fun e => e.1 == name) = tags
  rcases tags with _ | ⟨e, _ | ⟨e', tags⟩⟩ <;> rfl

/-- Of the entries of the tag, only what they say matters. -/
theorem splitEntries_congr
    (htags : (es.filter fun e => e.1 == name).map (fun e => ofTag e.2) =
      (es'.filter fun e => e.1 == name).map fun e => ofTag e.2)
    (hrest : (es.filter fun e => e.1 != name) = es'.filter fun e => e.1 != name) :
    splitEntries name ofTag es = splitEntries name ofTag es' := by
  rw [splitEntries_eq, splitEntries_eq, htags, hrest]

/-- A tag is taken out of the entries if it stands among them once. -/
theorem splitEntries_eq_ok_iff {t : Tagged α node} :
    splitEntries name ofTag es = .ok t ↔
      ∃ x, es.filter (fun e => e.1 == name) = [(name, x)] ∧
        ∃ tag, ofTag x = .ok tag ∧ t = ⟨tag, .inl (es.filter fun e => e.1 != name)⟩ := by
  unfold splitEntries
  split
  · next h => simp [h]
  · next key x h =>
    have hmem : (key, x) ∈ es.filter fun e => e.1 == name := h ▸ List.mem_cons_self
    obtain rfl : key = name := beq_iff_eq.1 (List.mem_filter.1 hmem).2
    simp only [h, bind_eq_ok_iff, pure_eq_ok_iff, List.cons.injEq, and_true, Prod.mk.injEq,
      true_and, exists_eq_left']
  · next h =>
    refine iff_of_false ?_ ?_
    · intro hok
      obtain ⟨_, -, hok⟩ := bind_eq_ok_iff.1 hok
      cases hok
    · rintro ⟨x, hone, -⟩
      cases h.symm.trans hone

end Tagged

end TestSelection
