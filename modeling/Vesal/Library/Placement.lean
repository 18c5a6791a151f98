import Mathlib.Tactic

/-!
# Things that are each in one place

Finitely many things are spread over places, each place with a list of what is there. Moving
things from one place to another keeps every thing in exactly one place.
-/

namespace Vesal.Library

open List

variable {ι α : Type} {items : List α} {lists : ι → List α}

/-- Every item is in exactly one of the lists, and there once. -/
structure Placed (items : List α) (lists : ι → List α) : Prop where
  nodup : ∀ i, (lists i).Nodup
  eq_of_mem : ∀ i j a, a ∈ lists i → a ∈ lists j → i = j
  mem_iff : ∀ a, a ∈ items ↔ ∃ i, a ∈ lists i

/-- The lists after some items went from the place `i`, where `rest` stays, to the front of `j`. -/
def moveTo [DecidableEq ι] (lists : ι → List α) (i j : ι) (moved rest : List α) : ι → List α :=
  Function.update (Function.update lists i rest) j (moved ++ lists j)

section

variable [DecidableEq ι] {i j k : ι} {moved rest : List α}

lemma moveTo_to : moveTo lists i j moved rest j = moved ++ lists j := by simp [moveTo]

lemma moveTo_from (h : i ≠ j) : moveTo lists i j moved rest i = rest := by simp [moveTo, h]

lemma moveTo_of_ne (hi : k ≠ i) (hj : k ≠ j) : moveTo lists i j moved rest k = lists k := by
  simp [moveTo, hi, hj]

/-- Where an item is after a move. -/
lemma mem_moveTo_iff (hperm : (lists i).Perm (moved ++ rest)) (hij : i ≠ j) (hplaced : Placed items lists)
    (a : α) : a ∈ moveTo lists i j moved rest k ↔ (a ∈ moved ∧ k = j) ∨ (a ∉ moved ∧ a ∈ lists k) := by
  have hfrom : a ∈ lists i ↔ a ∈ moved ∨ a ∈ rest := by rw [hperm.mem_iff, mem_append]
  have hdisj : a ∈ moved → a ∉ rest := by
    intro hmoved hrest
    have hnodup := hperm.nodup_iff.mp (hplaced.nodup i)
    exact (nodup_append'.mp hnodup).2.2 hmoved hrest
  by_cases hkj : k = j
  · subst hkj
    rw [moveTo_to, mem_append]
    by_cases hmoved : a ∈ moved <;> simp [hmoved]
  · by_cases hki : k = i
    · subst hki
      rw [moveTo_from hij, hfrom]
      by_cases hmoved : a ∈ moved
      · simp [hmoved, hkj, hdisj hmoved]
      · simp [hmoved]
    · rw [moveTo_of_ne hki hkj]
      by_cases hmoved : a ∈ moved
      · have hnot : a ∉ lists k := fun hk => hki (hplaced.eq_of_mem k i a hk (hfrom.mpr (Or.inl hmoved)))
        simp [hmoved, hkj, hnot]
      · simp [hmoved]

/-- A move keeps every item in exactly one place. -/
theorem Placed.moveTo (h : Placed items lists) (hij : i ≠ j) (hperm : (lists i).Perm (moved ++ rest)) :
    Placed items (moveTo lists i j moved rest) where
  nodup k := by
    have hnodup := hperm.nodup_iff.mp (h.nodup i)
    by_cases hkj : k = j
    · subst hkj
      rw [moveTo_to]
      refine nodup_append'.mpr ⟨(nodup_append'.mp hnodup).1, h.nodup k, ?_⟩
      intro a hmoved hk
      exact hij (h.eq_of_mem i k a (hperm.mem_iff.mpr (mem_append_left rest hmoved)) hk)
    · by_cases hki : k = i
      · subst hki
        rw [moveTo_from hij]
        exact (nodup_append'.mp hnodup).2.1
      · rw [moveTo_of_ne hki hkj]
        exact h.nodup k
  eq_of_mem k k' a hk hk' := by
    rw [mem_moveTo_iff hperm hij h] at hk hk'
    rcases hk with ⟨hmoved, rfl⟩ | ⟨hmoved, hk⟩
    · rcases hk' with ⟨_, rfl⟩ | ⟨hnot, _⟩
      · rfl
      · exact absurd hmoved hnot
    · rcases hk' with ⟨hnot, _⟩ | ⟨_, hk'⟩
      · exact absurd hnot hmoved
      · exact h.eq_of_mem k k' a hk hk'
  mem_iff a := by
    rw [h.mem_iff a]
    constructor
    · rintro ⟨k, hk⟩
      by_cases hmoved : a ∈ moved
      · exact ⟨j, (mem_moveTo_iff hperm hij h a).mpr (Or.inl ⟨hmoved, rfl⟩)⟩
      · exact ⟨k, (mem_moveTo_iff hperm hij h a).mpr (Or.inr ⟨hmoved, hk⟩)⟩
    · rintro ⟨k, hk⟩
      rcases (mem_moveTo_iff hperm hij h a).mp hk with ⟨hmoved, _⟩ | ⟨_, hk⟩
      · exact ⟨i, hperm.mem_iff.mpr (mem_append_left rest hmoved)⟩
      · exact ⟨k, hk⟩

/-- A move takes the items from one list and adds them to the other. -/
lemma perm_moveTo (hij : i ≠ j) (hperm : (lists i).Perm (moved ++ rest)) (k : ι) :
    (moveTo lists i j moved rest k ++ if k = i then moved else []).Perm (lists k ++ if k = j then moved else []) := by
  by_cases hkj : k = j
  · subst hkj
    rw [moveTo_to, if_neg hij.symm, if_pos rfl, append_nil]
    exact perm_append_comm
  · by_cases hki : k = i
    · subst hki
      rw [moveTo_from hij, if_pos rfl, if_neg hij, append_nil]
      exact perm_append_comm.trans hperm.symm
    · rw [moveTo_of_ne hki hkj, if_neg hki, if_neg hkj]

lemma length_moveTo (hij : i ≠ j) (hperm : (lists i).Perm (moved ++ rest)) (k : ι) :
    (moveTo lists i j moved rest k).length + (if k = i then moved.length else 0) =
      (lists k).length + if k = j then moved.length else 0 := by
  have hlen := (perm_moveTo hij hperm k).length_eq
  rw [length_append, length_append, apply_ite length, apply_ite length] at hlen
  exact hlen

end

section Counting

variable {β : Type}

lemma sum_ite_eq_countP (xs : List α) (P : α → Bool) : (xs.map fun x => if P x then 1 else 0).sum = xs.countP P := by
  induction xs with
  | nil => rfl
  | cons x xs ih => rw [map_cons, sum_cons, countP_cons, ih, Nat.add_comm]

/-- Counting what is at each place counts every thing once, when it is at one of the places or at
none of them. -/
lemma sum_countP_eq (xs : List α) (ys : List β) (P : α → β → Bool) (Q : β → Bool)
    (h : ∀ y ∈ ys, (xs.countP fun x => P x y) = if Q y then 1 else 0) :
    (xs.map fun x => ys.countP (P x)).sum = ys.countP Q := by
  induction ys with
  | nil => simp
  | cons y ys ih =>
    have hone := h y mem_cons_self
    have hrest := ih fun y' hy' => h y' (mem_cons_of_mem y hy')
    simp only [countP_cons]
    rw [sum_map_add, hrest, sum_ite_eq_countP, hone]

end Counting

end Vesal.Library
