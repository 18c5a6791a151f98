import Mathlib.Tactic

/-!
# Ranges covered by disjoint items

Items take up the addresses `lo a ≤ x < hi a`. A range of addresses that they cover is cut at
their borders into pieces, one for each item that the range touches.
-/

namespace Vesal.Library

open List

variable {α : Type*} (lo hi : α → Nat) (items : Set α)

def MeetsRange (v len : Nat) (a : α) : Prop := ∃ x, v ≤ x ∧ x < v + len ∧ lo a ≤ x ∧ x < hi a

/-- The items that have an address of the range. -/
def touched (v len : Nat) : Set α := {a ∈ items | MeetsRange lo hi v len a}

def Covers (v len : Nat) : Prop := ∀ x, v ≤ x → x < v + len → ∃ a ∈ items, lo a ≤ x ∧ x < hi a

def Apart : Prop := ∀ a ∈ items, ∀ b ∈ items, a ≠ b → hi a ≤ lo b ∨ hi b ≤ lo a

/-- The pieces of a range: each is an item and the number of addresses that it has of the range. -/
inductive Cuts : Nat → Nat → List (α × Nat) → Prop
  | nil (v : Nat) : Cuts v 0 []
  | cons {v len : Nat} {a : α} {pieces : List (α × Nat)} (ha : a ∈ items) (hlo : lo a ≤ v) (hhi : v < hi a)
      (hlen : 0 < len) (hrest : Cuts (v + min len (hi a - v)) (len - min len (hi a - v)) pieces) :
      Cuts v len ((a, min len (hi a - v)) :: pieces)

variable {lo hi items} {v len : Nat} {a b : α} {pieces : List (α × Nat)}

/-- Disjoint items share no address. -/
lemma Apart.eq (h : Apart lo hi items) (ha : a ∈ items) (hb : b ∈ items) {x : Nat} (hax : lo a ≤ x ∧ x < hi a)
    (hbx : lo b ≤ x ∧ x < hi b) : a = b := by
  by_contra hne
  have hsides := h a ha b hb hne
  omega

lemma covers_zero (v : Nat) : Covers lo hi items v 0 := by
  intro x hle hlt
  omega

/-- A range is covered when its first piece is inside an item and the rest is covered. -/
lemma covers_iff (ha : a ∈ items) (hlo : lo a ≤ v) {n : Nat} (hn : v + n ≤ hi a) (hle : n ≤ len) :
    Covers lo hi items v len ↔ Covers lo hi items (v + n) (len - n) := by
  constructor
  · intro h x hle' hlt
    exact h x (by omega) (by omega)
  · intro h x hle' hlt
    by_cases hx : x < v + n
    · exact ⟨a, ha, by omega, by omega⟩
    · exact h x (by omega) (by omega)

lemma Cuts.covers (h : Cuts lo hi items v len pieces) : Covers lo hi items v len := by
  induction h with
  | nil v => exact covers_zero v
  | @cons v len a pieces ha hlo hhi hlen hrest ih =>
    have hinside : v + min len (hi a - v) ≤ hi a := by omega
    rw [covers_iff ha hlo hinside (Nat.min_le_left _ _)]
    exact ih

lemma exists_cuts_of_covers (h : Covers lo hi items v len) : ∃ pieces, Cuts lo hi items v len pieces := by
  -- each piece has at least one address
  induction len using Nat.strong_induction_on generalizing v with
  | _ len ih =>
    by_cases hzero : len = 0
    · subst hzero
      exact ⟨[], .nil v⟩
    · obtain ⟨a, ha, hlo, hhi⟩ := h v le_rfl (by omega)
      have hrest := (covers_iff (n := min len (hi a - v)) ha hlo (by omega) (Nat.min_le_left _ _)).mp h
      obtain ⟨pieces, hpieces⟩ := ih (len - min len (hi a - v)) (by omega) hrest
      exact ⟨_, .cons ha hlo hhi (by omega) hpieces⟩

/-- A range inside one item. -/
lemma Cuts.single (ha : a ∈ items) (hlo : lo a ≤ v) (hhi : v + len ≤ hi a) (hlen : 0 < len) :
    Cuts lo hi items v len [(a, len)] := by
  have hmin : min len (hi a - v) = len := by omega
  have hcuts : Cuts lo hi items v len [(a, min len (hi a - v))] := by
    apply Cuts.cons ha hlo (by omega) hlen
    rw [hmin, Nat.sub_self]
    exact Cuts.nil _
  rw [hmin] at hcuts
  exact hcuts

lemma Cuts.sum (h : Cuts lo hi items v len pieces) : (pieces.map Prod.snd).sum = len := by
  induction h with
  | nil => rfl
  | cons ha hlo hhi hlen hrest ih =>
    rw [map_cons, sum_cons, ih]
    exact Nat.add_sub_cancel' (Nat.min_le_left _ _)

/-- The item of a piece has all the addresses of the piece. -/
lemma Cuts.piece (h : Cuts lo hi items v len pieces) {i n : Nat} (hi' : pieces[i]? = some (a, n)) :
    a ∈ items ∧ 0 < n ∧ lo a ≤ v + ((pieces.take i).map Prod.snd).sum ∧
      v + ((pieces.take i).map Prod.snd).sum + n ≤ hi a := by
  induction h generalizing i with
  | nil => simp at hi'
  | cons ha hlo hhi hlen hrest ih =>
    cases i with
    | zero =>
      obtain ⟨rfl, rfl⟩ := hi'
      simp only [take_zero, map_nil, sum_nil]
      exact ⟨ha, by omega, by omega, by omega⟩
    | succ i =>
      have hpiece := ih hi'
      simp only [take_succ_cons, map_cons, sum_cons]
      rw [← Nat.add_assoc]
      exact hpiece

/-- What a range touches behind its first piece. -/
lemma touched_insert (hapart : Apart lo hi items) (ha : a ∈ items) (hlo : lo a ≤ v) (hhi : v < hi a)
    (hlen : 0 < len) :
    touched lo hi items v len =
      insert a (touched lo hi items (v + min len (hi a - v)) (len - min len (hi a - v))) := by
  ext b
  constructor
  · rintro ⟨hb, x, hle, hlt, hbx⟩
    by_cases hx : x < hi a
    · exact Or.inl (hapart.eq hb ha hbx ⟨by omega, hx⟩)
    · exact Or.inr ⟨hb, x, by omega, by omega, hbx⟩
  · rintro (rfl | ⟨hb, x, hle, hlt, hbx⟩)
    · exact ⟨ha, v, by omega, by omega, hlo, hhi⟩
    · exact ⟨hb, x, by omega, by omega, hbx⟩

lemma notMem_touched (v len : Nat) (hhi : hi a ≤ v) : a ∉ touched lo hi items v len := by
  rintro ⟨-, x, hle, -, -, hlt⟩
  omega

lemma touched_zero (v : Nat) : touched lo hi items v 0 = ∅ := by
  ext b
  simp only [touched, MeetsRange, Set.mem_ofPred_eq, Set.mem_empty_iff_false, iff_false]
  rintro ⟨-, x, hle, hlt, -⟩
  omega

/-- A covered range has one piece for each item that it touches. -/
theorem Cuts.touched (hapart : Apart lo hi items) (h : Cuts lo hi items v len pieces) :
    (touched lo hi items v len).Finite ∧ (touched lo hi items v len).ncard = pieces.length := by
  induction h with
  | nil v =>
    rw [touched_zero]
    exact ⟨Set.finite_empty, Set.ncard_empty _⟩
  | @cons v len a pieces ha hlo hhi hlen hrest ih =>
    obtain ⟨hfin, hcard⟩ := ih
    rw [touched_insert hapart ha hlo hhi hlen]
    refine ⟨hfin.insert a, ?_⟩
    rw [length_cons, ← hcard]
    apply Set.ncard_insert_of_notMem _ hfin
    -- behind the first piece the item has no address of the range
    by_cases hend : hi a ≤ v + min len (hi a - v)
    · exact notMem_touched _ _ hend
    · have hnone : len - min len (hi a - v) = 0 := by omega
      rw [hnone, touched_zero]
      exact Set.notMem_empty a

end Vesal.Library
