import Mathlib.Data.List.Forall2

/-!
# Steps that may fail

When a step gives a result. A proof about a function that works in such steps takes it apart with
these facts, and puts it together again with them; it need not look into the steps one by one.

A check of each item of a list stops at the first item that fails (`forM_eq_error_iff`), and what it
says about this item is the result. `FirstNot` is the item at which it stops.
-/

namespace TestSelection

variable {ε ε' α β : Type}

/-- A result comes from two steps if both have results. -/
theorem bind_eq_ok_iff {x : Except ε α} {f : α → Except ε β} {b : β} :
    (x >>= f) = .ok b ↔ ∃ a, x = .ok a ∧ f a = .ok b := by
  cases x with
  | ok a => simp [bind, Except.bind]
  | error e => simp [bind, Except.bind]

theorem pure_eq_ok_iff {a b : α} : (pure a : Except ε α) = .ok b ↔ b = a :=
  Except.ok.injEq a b ▸ eq_comm

theorem mapError_eq_ok_iff {f : ε → ε'} {x : Except ε α} {a : α} :
    x.mapError f = .ok a ↔ x = .ok a := by
  cases x with
  | ok b => simp [Except.mapError]
  | error e => simp [Except.mapError]

theorem mapError_eq_error_iff {f : ε → ε'} {x : Except ε α} {e' : ε'} :
    x.mapError f = .error e' ↔ ∃ e, x = .error e ∧ f e = e' := by
  cases x with
  | ok a => simp [Except.mapError]
  | error e => simp [Except.mapError]

theorem map_eq_ok_iff {f : α → β} {x : Except ε α} {b : β} :
    x.map f = .ok b ↔ ∃ a, x = .ok a ∧ f a = b := by
  cases x with
  | ok a => simp [Except.map]
  | error e => simp [Except.map]

theorem map_eq_error_iff {f : α → β} {x : Except ε α} {e : ε} :
    x.map f = .error e ↔ x = .error e := by
  cases x with
  | ok a => simp [Except.map]
  | error e' => simp [Except.map]

/-- A result that was computed with the error left out. -/
theorem eq_ok_of_toOption_eq_some {x : Except ε α} {a : α} (h : x.toOption = some a) :
    x = .ok a := by
  cases x with
  | ok b => simpa [Except.toOption] using h
  | error e => simp [Except.toOption] at h

theorem exists_eq_ok_of_isOk {x : Except ε α} (h : x.isOk = true) : ∃ a, x = .ok a := by
  cases x with
  | ok a => exact ⟨a, rfl⟩
  | error e => cases h

theorem exists_eq_error_of_isOk {x : Except ε α} (h : x.isOk = false) : ∃ e, x = .error e := by
  cases x with
  | ok a => cases h
  | error e => exact ⟨e, rfl⟩

/-- A step for each item has results if each step has one. -/
theorem mapM_eq_ok_iff {f : α → Except ε β} {xs : List α} {ys : List β} :
    xs.mapM f = .ok ys ↔ List.Forall₂ (fun x y => f x = .ok y) xs ys := by
  induction xs generalizing ys with
  | nil => rw [List.mapM_nil, pure_eq_ok_iff, List.forall₂_nil_left_iff]
  | cons x xs ih =>
    simp only [List.mapM_cons, bind_eq_ok_iff, pure_eq_ok_iff, ih, List.forall₂_cons_left_iff]
    constructor
    · rintro ⟨y, hy, ys', hys, rfl⟩
      exact ⟨y, ys', hy, hys, rfl⟩
    · rintro ⟨y, ys', hy, hys, rfl⟩
      exact ⟨y, hy, ys', hys, rfl⟩

theorem mapM_eq_some_iff {α β : Type} {f : α → Option β} {xs : List α} {ys : List β} :
    xs.mapM f = some ys ↔ List.Forall₂ (fun x y => f x = some y) xs ys := by
  induction xs generalizing ys with
  | nil => simp [List.mapM_nil, List.forall₂_nil_left_iff, eq_comm]
  | cons x xs ih =>
    simp only [List.mapM_cons, Option.bind_eq_bind, Option.bind_eq_some_iff, Option.pure_def,
      Option.some.injEq, ih, List.forall₂_cons_left_iff]
    constructor
    · rintro ⟨y, hy, ys', hys, rfl⟩
      exact ⟨y, ys', hy, hys, rfl⟩
    · rintro ⟨y, ys', hy, hys, rfl⟩
      exact ⟨y, hy, ys', hys, rfl⟩

/-! ## Checking each item -/

/-- The first item of a list that has not got a property. -/
def FirstNot (P : α → Prop) (xs : List α) (x : α) : Prop :=
  ∃ before after, xs = before ++ x :: after ∧ (∀ y ∈ before, P y) ∧ ¬ P x

theorem firstNot_cons_of_not {P : α → Prop} {x y : α} {xs : List α} (hx : ¬ P x) :
    FirstNot P (x :: xs) y ↔ y = x := by
  constructor
  · rintro ⟨before, after, h, hbefore, -⟩
    cases before with
    | nil => exact (List.cons.inj h).1.symm
    | cons z before =>
      obtain ⟨rfl, -⟩ := List.cons.inj h
      exact absurd (hbefore x List.mem_cons_self) hx
  · rintro rfl
    exact ⟨[], xs, rfl, by simp, hx⟩

theorem firstNot_cons_of_pos {P : α → Prop} {x y : α} {xs : List α} (hx : P x) :
    FirstNot P (x :: xs) y ↔ FirstNot P xs y := by
  constructor
  · rintro ⟨before, after, h, hbefore, hy⟩
    cases before with
    | nil =>
      obtain ⟨rfl, -⟩ := List.cons.inj h
      exact absurd hx hy
    | cons z before =>
      obtain ⟨-, rfl⟩ := List.cons.inj h
      exact ⟨before, after, rfl, (List.forall_mem_cons.1 hbefore).2, hy⟩
  · rintro ⟨before, after, rfl, hbefore, hy⟩
    exact ⟨x :: before, after, rfl, List.forall_mem_cons.2 ⟨hx, hbefore⟩, hy⟩

theorem FirstNot.mem {P : α → Prop} {xs : List α} {x : α} (h : FirstNot P xs x) : x ∈ xs := by
  obtain ⟨before, after, rfl, -, -⟩ := h
  exact List.mem_append_right before List.mem_cons_self

/-- In a list that ascends, the first item that has not got a property is the least one. -/
theorem firstNot_iff_of_pairwise {P : α → Prop} {lt : α → α → Prop} {xs : List α}
    (hlt : xs.Pairwise lt) (hirrefl : ∀ x, ¬ lt x x) (hasymm : ∀ x y, lt x y → ¬ lt y x) {x : α} :
    FirstNot P xs x ↔ x ∈ xs ∧ (∀ y ∈ xs, lt y x → P y) ∧ ¬ P x := by
  constructor
  · intro h
    refine ⟨h.mem, ?_, ?_⟩
    · obtain ⟨before, after, rfl, hbefore, -⟩ := h
      obtain ⟨-, hafter, -⟩ := List.pairwise_append.1 hlt
      intro y hy hyx
      rcases List.mem_append.1 hy with hy | hy
      · exact hbefore y hy
      · rcases List.mem_cons.1 hy with rfl | hy
        · exact absurd hyx (hirrefl y)
        · exact absurd hyx (hasymm x y ((List.pairwise_cons.1 hafter).1 y hy))
    · obtain ⟨-, -, -, -, hx⟩ := h
      exact hx
  · rintro ⟨hmem, hleast, hx⟩
    obtain ⟨before, after, rfl⟩ := List.append_of_mem hmem
    refine ⟨before, after, rfl, fun y hy => ?_, hx⟩
    obtain ⟨-, -, hbefore⟩ := List.pairwise_append.1 hlt
    exact hleast y (List.mem_append_left _ hy) (hbefore y hy x List.mem_cons_self)

theorem forM_eq_ok_iff {check : α → Except ε Unit} {xs : List α} :
    forM xs check = .ok () ↔ ∀ x ∈ xs, check x = .ok () := by
  induction xs with
  | nil => exact ⟨fun _ => by simp, fun _ => rfl⟩
  | cons x xs ih =>
    rw [List.forM_cons, bind_eq_ok_iff, List.forall_mem_cons, ← ih]
    exact Unique.exists_iff

/-- Items are checked up to the first that fails, and it fails for its own reason. -/
theorem forM_eq_error_iff {check : α → Except ε Unit} {xs : List α} {e : ε} :
    forM xs check = .error e ↔
      ∃ x, FirstNot (fun x => check x = .ok ()) xs x ∧ check x = .error e := by
  induction xs with
  | nil =>
    constructor
    · intro h
      cases h
    · rintro ⟨x, hx, -⟩
      cases hx.mem
  | cons x xs ih =>
    rw [List.forM_cons]
    cases hx : check x with
    | ok u =>
      have hfirst (y : α) : FirstNot (fun x => check x = .ok ()) (x :: xs) y ↔
          FirstNot (fun x => check x = .ok ()) xs y := firstNot_cons_of_pos hx
      simp only [hfirst]
      exact ih
    | error e' =>
      have hfirst (y : α) : FirstNot (fun x => check x = .ok ()) (x :: xs) y ↔ y = x :=
        firstNot_cons_of_not (by simp [hx])
      simp only [hfirst, exists_eq_left, hx]
      rfl

end TestSelection
