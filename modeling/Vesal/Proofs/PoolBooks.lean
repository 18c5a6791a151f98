import Vesal.Proofs.PoolStore

/-! # The books of a pool -/

namespace Vesal.Proofs

open Library List

variable {chunks moved rest : List Nat} {p p' : ChunkPool} {v v' : PoolView} {source target place : Place}
  {a c c' : Nat} {i i' : Fin kBlockNum} {b b' : TLSBlockCache}

namespace PoolView

def heldChunks (v : PoolView) (c : Nat) (i : Fin kBlockNum) : List Nat :=
  v.lists (.recyclable c i) ++ v.lists (.available c i) ++ v.lists (.full c i)

def takenNum (v : PoolView) (c : Nat) (i : Fin kBlockNum) : Nat :=
  ((v.heldChunks c i).map fun a => blockNum i - (v.free a).length).sum

end PoolView

structure ClassBooks (b : TLSBlockCache) (v : PoolView) (c : Nat) (i : Fin kBlockNum) : Prop where
  blockSize : b.blockSize = kBlockSizes i
  totalSize : b.totalSize = (v.heldChunks c i).length * kChunkSize
  recyclableSize : b.recyclableSize = (v.lists (.recyclable c i)).length * kChunkSize
  inUseSize : b.inUseSize = v.takenNum c i * kBlockSizes i

def Booked (p : ChunkPool) (v : PoolView) : Prop := ∀ c i, ClassBooks (p.blockCache c i) v c i

/-- The chunks on the lists of those with free blocks have a block that is not free, apart from `a`. -/
def PartedOff (v : PoolView) (a : Nat) : Prop :=
  ∀ c i, ∀ a' ∈ v.lists (.available c i), a' ≠ a → (v.free a').length < blockNum i

def Parted (v : PoolView) : Prop := ∀ c i, ∀ a ∈ v.lists (.available c i), (v.free a).length < blockNum i

def Exact (p : ChunkPool) (v : PoolView) (c : Nat) : Prop := (p.caches c).recyclableChunkNum = v.recyclableNum c

structure Keeps (c : Nat) (p p' : ChunkPool) (v v' : PoolView) : Prop where
  counted : Counted p v c → Counted p' v' c
  exact : Exact p v c → Exact p' v' c
  booked : Booked p v → Booked p' v'

lemma Keeps.trans {p'' : ChunkPool} {v'' : PoolView} (h : Keeps c p p' v v') (h' : Keeps c p' p'' v' v'') :
    Keeps c p p'' v v'' where
  counted hcounted := h'.counted (h.counted hcounted)
  exact hexact := h'.exact (h.exact hexact)
  booked hbooked := h'.booked (h.booked hbooked)

section Chunks

lemma mem_heldChunks : a ∈ v.heldChunks c i ↔ v.Held c i a := by
  unfold PoolView.heldChunks
  rw [mem_append, mem_append]
  constructor
  · rintro ((ha | ha) | ha)
    · exact ⟨.recyclable c i, rfl, ha⟩
    · exact ⟨.available c i, rfl, ha⟩
    · exact ⟨.full c i, rfl, ha⟩
  · rintro ⟨place, howner, ha⟩
    cases place with
    | central => cases howner
    | recyclable c' i' =>
      cases howner
      exact Or.inl (Or.inl ha)
    | available c' i' =>
      cases howner
      exact Or.inl (Or.inr ha)
    | full c' i' =>
      cases howner
      exact Or.inr ha

lemma nodup_heldChunks (hplaced : Placed chunks v.lists) (c : Nat) (i : Fin kBlockNum) : (v.heldChunks c i).Nodup := by
  refine nodup_append'.mpr ⟨nodup_append'.mpr ⟨hplaced.nodup _, hplaced.nodup _, ?_⟩, hplaced.nodup _, ?_⟩
  · intro a ha ha'
    cases hplaced.eq_of_mem _ _ a ha ha'
  · intro a ha ha'
    rcases mem_append.mp ha with ha | ha
    · cases hplaced.eq_of_mem _ _ a ha ha'
    · cases hplaced.eq_of_mem _ _ a ha ha'

def Place.share (c : Nat) (i : Fin kBlockNum) (moved : List Nat) (place : Place) : List Nat :=
  if place.owner = some (c, i) then moved else []

lemma count_share (place : Place) (c : Nat) (i : Fin kBlockNum) (moved : List Nat) (a : Nat) :
    (if Place.recyclable c i = place then moved else []).count a +
        (if Place.available c i = place then moved else []).count a +
        (if Place.full c i = place then moved else []).count a =
      (place.share c i moved).count a := by
  unfold Place.share
  cases place with
  | central => simp [Place.owner]
  | recyclable c' i' => simp [Place.owner, eq_comm]
  | available c' i' => simp [Place.owner, eq_comm]
  | full c' i' => simp [Place.owner, eq_comm]

lemma heldChunks_move (hne : source ≠ target) (hperm : (v.lists source).Perm (moved ++ rest)) (c : Nat)
    (i : Fin kBlockNum) :
    ((v.move source target moved rest).heldChunks c i ++ source.share c i moved).Perm
      (v.heldChunks c i ++ target.share c i moved) := by
  refine perm_iff_count.mpr fun a => ?_
  have hrecyclable := (perm_moveTo hne hperm (.recyclable c i)).count_eq a
  have havailable := (perm_moveTo hne hperm (.available c i)).count_eq a
  have hfull := (perm_moveTo hne hperm (.full c i)).count_eq a
  have hsource := count_share source c i moved a
  have htarget := count_share target c i moved a
  unfold PoolView.heldChunks PoolView.move
  simp only [count_append] at hrecyclable havailable hfull ⊢
  omega

end Chunks

section Taken

lemma takenNum_append (moved : List Nat) (hperm : (v'.heldChunks c i).Perm (v.heldChunks c i ++ moved))
    (hfree : ∀ a, v.Held c i a → v'.free a = v.free a) (hmoved : ∀ a ∈ moved, (v'.free a).length = blockNum i) :
    v'.takenNum c i = v.takenNum c i := by
  have hzero : (moved.map fun a => blockNum i - (v'.free a).length).sum = 0 := by
    refine sum_eq_zero fun n hn => ?_
    obtain ⟨a, ha, rfl⟩ := mem_map.mp hn
    rw [hmoved a ha, Nat.sub_self]
  unfold PoolView.takenNum
  rw [(hperm.map _).sum_eq, map_append, sum_append, hzero, Nat.add_zero]
  congr 1
  refine map_congr_left fun a ha => ?_
  rw [hfree a (mem_heldChunks.mp ha)]

lemma takenNum_congr (hperm : (v'.heldChunks c i).Perm (v.heldChunks c i))
    (hfree : ∀ a, v.Held c i a → v'.free a = v.free a) : v'.takenNum c i = v.takenNum c i := by
  refine takenNum_append [] ?_ hfree fun _ ha => by cases ha
  rw [append_nil]
  exact hperm

lemma takenNum_alter {blocks : List Nat} (hperm : (v'.heldChunks c i).Perm (v.heldChunks c i))
    (hnodup : (v.heldChunks c i).Nodup) (ha : v.Held c i a) (hfree : v'.free = Function.update v.free a blocks) :
    v'.takenNum c i + (blockNum i - (v.free a).length) = v.takenNum c i + (blockNum i - blocks.length) := by
  have hsplit := perm_cons_erase (mem_heldChunks.mpr ha)
  have hrest : ((v.heldChunks c i).erase a).map (fun a' => blockNum i - (v'.free a').length) =
      ((v.heldChunks c i).erase a).map fun a' => blockNum i - (v.free a').length := by
    refine map_congr_left fun a' ha' => ?_
    rw [hfree, Function.update_of_ne (hnodup.mem_erase_iff.mp ha').1]
  unfold PoolView.takenNum
  rw [((hperm.trans hsplit).map _).sum_eq, (hsplit.map fun a' => blockNum i - (v.free a').length).sum_eq, map_cons,
    map_cons, sum_cons, sum_cons, hrest, hfree, Function.update_self]
  omega

end Taken

section Books

lemma heldChunks_congr (h : ∀ place, place.owner = some (c, i) → v'.lists place = v.lists place) :
    v'.heldChunks c i = v.heldChunks c i := by
  unfold PoolView.heldChunks
  rw [h (.recyclable c i) rfl, h (.available c i) rfl, h (.full c i) rfl]

lemma ClassBooks.congr (h : ClassBooks b v c i) (hlists : ∀ place, place.owner = some (c, i) → v'.lists place = v.lists place)
    (hfree : ∀ a, v.Held c i a → v'.free a = v.free a) : ClassBooks b v' c i := by
  have hheld := heldChunks_congr hlists
  refine ⟨h.blockSize, ?_, ?_, ?_⟩
  · rw [hheld]
    exact h.totalSize
  · rw [hlists (.recyclable c i) rfl]
    exact h.recyclableSize
  · rw [takenNum_congr (hheld ▸ Perm.refl _) hfree]
    exact h.inUseSize

lemma classBooks_empty {size : Nat} (hsize : size = kBlockSizes i) (hnone : v.heldChunks c i = []) :
    ClassBooks ⟨0, 0, size, 0, 0, 0⟩ v c i := by
  have hrecyclable : v.lists (.recyclable c i) = [] := (append_eq_nil_iff.mp (append_eq_nil_iff.mp hnone).1).1
  refine ⟨hsize, ?_, ?_, ?_⟩
  · rw [hnone, length_nil, Nat.zero_mul]
  · rw [hrecyclable, length_nil, Nat.zero_mul]
  · rw [PoolView.takenNum, hnone, map_nil, sum_nil, Nat.zero_mul]

lemma Booked.alter (h : Booked p v) (halters : Alters c i p p')
    (hlists : ∀ place c' i', place.owner = some (c', i') → (c', i') ≠ (c, i) → v'.lists place = v.lists place)
    (hfree : ∀ c' i' a, v.Held c' i' a → (c', i') ≠ (c, i) → v'.free a = v.free a)
    (hself : ClassBooks (p'.blockCache c i) v' c i) : Booked p' v' := by
  intro c' i'
  by_cases hne : (c', i') = (c, i)
  · cases hne
    exact hself
  · rw [halters.blockCache_of_ne hne]
    exact (h c' i').congr (fun place howner => hlists place c' i' howner hne) fun a ha => hfree c' i' a ha hne

lemma Booked.congr (h : Booked p v) (hcaches : ∀ c i, p'.blockCache c i = p.blockCache c i) : Booked p' v := by
  intro c i
  rw [hcaches]
  exact h c i

lemma moveTo_lists_of_owner_ne (hsource : source.owner = none ∨ source.owner = some (c, i))
    (htarget : target.owner = none ∨ target.owner = some (c, i)) (howner : place.owner = some (c', i'))
    (hne : (c', i') ≠ (c, i)) : moveTo v.lists source target moved rest place = v.lists place := by
  refine moveTo_of_ne ?_ ?_
  · rintro rfl
    simp [howner, hne] at hsource
  · rintro rfl
    simp [howner, hne] at htarget

end Books

end Vesal.Proofs
