import Mathlib.Algebra.BigOperators.Fin
import Mathlib.Data.List.Forall2
import Mathlib.Data.List.Perm.Subperm

/-!
# Lists that are paired by a bijection

Two lists are `Paired` by a relation if a bijection between their positions pairs related items
only. So related items may stand in any order, and each counts as often as it occurs. A property
that partners share holds of some or of all items on both sides (`exists_iff`, `forall_iff`).

**Values** (`paired_iff_perm_map`). Lists are paired by having the same value if their lists of
values are permutations of each other. For each value the two lists have equally many positions
with that value, and bijections for the single values together are one for all positions.

**Counting** (`paired_iff_counts`). Let the relation be an equivalence, and the two lists of the
same length. To see that they are paired it is enough to count each item of the list on the left,
up to equivalence, on both sides. What stands on the right only would be left over, and there is no
room for it.
-/

namespace TestSelection

variable {α β γ : Type} {as : List α} {bs : List β}

/-- A bijection between the positions of two lists pairs related items only. -/
def Paired (R : α → β → Prop) (as : List α) (bs : List β) : Prop :=
  ∃ e : Fin as.length ≃ Fin bs.length, ∀ i, R as[i] bs[e i]

/-- Lists related item by item are paired in order. -/
theorem Paired.of_forall₂ {R : α → β → Prop} (h : List.Forall₂ R as bs) : Paired R as bs :=
  ⟨finCongr h.length_eq, fun i => h.get i.2 (h.length_eq ▸ i.2)⟩

/-- Each item on the left has a partner. -/
theorem Paired.exists_right {R : α → β → Prop} (h : Paired R as bs) {a : α} (ha : a ∈ as) :
    ∃ b ∈ bs, R a b := by
  obtain ⟨e, he⟩ := h
  obtain ⟨i, hi, rfl⟩ := List.getElem_of_mem ha
  exact ⟨bs[e ⟨i, hi⟩], List.getElem_mem _, he ⟨i, hi⟩⟩

/-- Each item on the right has a partner. -/
theorem Paired.exists_left {R : α → β → Prop} (h : Paired R as bs) {b : β} (hb : b ∈ bs) :
    ∃ a ∈ as, R a b := by
  obtain ⟨e, he⟩ := h
  obtain ⟨j, hj, rfl⟩ := List.getElem_of_mem hb
  refine ⟨as[e.symm ⟨j, hj⟩], List.getElem_mem _, ?_⟩
  simpa using he (e.symm ⟨j, hj⟩)

section

variable {P : α → Prop} {Q : β → Prop} (h : Paired (fun a b => P a ↔ Q b) as bs)

include h

theorem Paired.exists_iff : (∃ a ∈ as, P a) ↔ ∃ b ∈ bs, Q b := by
  constructor
  · rintro ⟨a, ha, hP⟩
    obtain ⟨b, hb, hab⟩ := h.exists_right ha
    exact ⟨b, hb, hab.1 hP⟩
  · rintro ⟨b, hb, hQ⟩
    obtain ⟨a, ha, hab⟩ := h.exists_left hb
    exact ⟨a, ha, hab.2 hQ⟩

theorem Paired.forall_iff : (∀ a ∈ as, P a) ↔ ∀ b ∈ bs, Q b := by
  constructor
  · intro hP b hb
    obtain ⟨a, ha, hab⟩ := h.exists_left hb
    exact hab.1 (hP a ha)
  · intro hQ a ha
    obtain ⟨b, hb, hab⟩ := h.exists_right ha
    exact hab.2 (hQ b hb)

end

/-! ## Values -/

/-- A value has as many positions as it has occurrences. -/
theorem card_positions [DecidableEq γ] (f : α → γ) (as : List α) (c : γ) :
    Fintype.card {i : Fin as.length // f as[i] = c} = (as.map f).count c := by
  rw [Fintype.card_subtype, Finset.card_filter]
  induction as with
  | nil => rfl
  | cons a as ih =>
    have hsucc := Fin.sum_univ_succ fun i : Fin (as.length + 1) =>
      if f (a :: as)[i] = c then 1 else 0
    rw [List.map_cons, List.count_cons, ← ih, add_comm]
    refine hsucc.trans ?_
    by_cases hc : f a = c <;> simp [hc]

/-- Lists are paired by their values if the values are the same up to order. -/
theorem paired_iff_perm_map {f : α → γ} {g : β → γ} :
    Paired (fun a b => f a = g b) as bs ↔ (as.map f).Perm (bs.map g) := by
  classical
  constructor
  · rintro ⟨e, he⟩
    rw [List.perm_iff_count]
    intro c
    rw [← card_positions f as c, ← card_positions g bs c]
    exact Fintype.card_congr (e.subtypeEquiv fun i => by rw [he i])
  · intro h
    have hcard (c : γ) : Fintype.card {i : Fin as.length // f as[i] = c} =
        Fintype.card {j : Fin bs.length // g bs[j] = c} := by
      rw [card_positions f as c, card_positions g bs c, h.count_eq]
    let fibers (c : γ) :
        {i : Fin as.length // f as[i] = c} ≃ {j : Fin bs.length // g bs[j] = c} :=
      Fintype.equivOfCardEq (hcard c)
    exact ⟨Equiv.ofFiberEquiv fibers, fun i => (Equiv.ofFiberEquiv_map fibers i).symm⟩

/-! ## Counting -/

/-- Lists of one length are paired if the items on the left are as many on both sides. -/
theorem paired_iff_counts {R : α → α → Prop} [DecidableRel R] (hR : Equivalence R)
    {as bs : List α} :
    Paired R as bs ↔ as.length = bs.length ∧
      ∀ a ∈ as, as.countP (fun x => R x a) = bs.countP fun x => R x a := by
  classical
  -- Up to equivalence, an item is its class, and counting items is counting classes.
  let s : Setoid α := ⟨R, hR⟩
  have hclass (x a : α) : Quotient.mk s x = Quotient.mk s a ↔ R x a := Quotient.eq
  have hcount (a : α) (xs : List α) :
      xs.countP (fun x => R x a) = (xs.map (Quotient.mk s)).count (Quotient.mk s a) := by
    rw [List.count, List.countP_map]
    exact List.countP_congr fun x _ => by simp [hclass]
  have hpaired : Paired R as bs ↔ (as.map (Quotient.mk s)).Perm (bs.map (Quotient.mk s)) := by
    simp only [← paired_iff_perm_map, hclass]
  rw [hpaired]
  constructor
  · intro h
    refine ⟨by simpa using h.length_eq, fun a _ => ?_⟩
    rw [hcount, hcount, h.count_eq]
  · rintro ⟨hlength, hcounts⟩
    have hsub : (as.map (Quotient.mk s)).Subperm (bs.map (Quotient.mk s)) := by
      rw [List.subperm_ext_iff]
      intro c hc
      obtain ⟨a, ha, rfl⟩ := List.mem_map.1 hc
      rw [← hcount, ← hcount, hcounts a ha]
    exact hsub.perm_of_length_le (by simp [hlength])

end TestSelection
