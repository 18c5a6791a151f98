import Vesal.PoolThreads

/-! # Where the blocks of a chunk lie -/

namespace Vesal.Proofs

open Library List

def eleSize (i : Fin kBlockNum) : Nat := kBlockSizes i + blockHeaderSize

def blockNum (i : Fin kBlockNum) : Nat := (kChunkSize - chunkHeaderSize) / eleSize i

def blockStart (a : Nat) (i : Fin kBlockNum) (k : Nat) : Nat := bufAddr a + k * eleSize i

def blocksOf (a : Nat) (i : Fin kBlockNum) : List Nat := (List.range (blockNum i)).map (blockStart a i)

def ptrsOf (a : Nat) (i : Fin kBlockNum) : List Nat := (blocksOf a i).map (· + blockHeaderSize)

def inChunk (a q : Nat) : Bool := decide (a ≤ q) && decide (q < a + kChunkSize)

def RangesApart (p n q m : Nat) : Prop := p + n ≤ q ∨ q + m ≤ p

section Classes

def kilobyteIndex (x : Nat) : Nat :=
  builtinPopcount ((if x &&& (x - 1) ≠ 0 then 0x80000000 >>> (builtinClz x - 1) else x) - 1)

lemma getBlockIndex_eq (size : Nat) : getBlockIndex size = kilobyteIndex ((size + 1023) / 1024) := by
  have hshift : (size + 1023) >>> 10 = (size + 1023) / 1024 := Nat.shiftRight_eq_div_pow _ 10
  rw [← hshift]
  rfl

lemma roundUp_eq : ∀ i < 10, ∀ x < 2 ^ i + 1, 2 ^ i < 2 * x →
    (if x &&& (x - 1) ≠ 0 then 0x80000000 >>> (builtinClz x - 1) else x) = 2 ^ i := by
  decide +kernel

lemma builtinPopcount_eq : ∀ i < 10, builtinPopcount (2 ^ i - 1) = i := by decide

lemma kilobyteIndex_eq_clog {x : Nat} (hlt : x < 513) (hpos : 0 < x) : kilobyteIndex x = Nat.clog 2 x := by
  have hle : x ≤ 2 ^ Nat.clog 2 x := Nat.le_pow_clog Nat.one_lt_two x
  have hten : Nat.clog 2 x < 10 := by
    refine Nat.lt_succ_of_le (Nat.clog_le_of_le_pow ?_)
    omega
  have hhalf : 2 ^ Nat.clog 2 x < 2 * x := by
    rcases Nat.lt_or_ge 1 x with hone | hone
    · have hpred := Nat.pow_pred_clog_lt_self Nat.one_lt_two hone
      rw [← Nat.succ_pred_eq_of_pos (Nat.clog_pos Nat.one_lt_two hone), pow_succ]
      omega
    · have hx : x = 1 := by omega
      rw [hx]
      decide
  unfold kilobyteIndex
  rw [roundUp_eq _ hten x (Nat.lt_succ_of_le hle) hhalf]
  exact builtinPopcount_eq _ hten

lemma kilobyteIndex_spec (x : Nat) (hlt : x < 513) (hpos : 0 < x) :
    kilobyteIndex x < kBlockNum ∧ x ≤ 2 ^ kilobyteIndex x ∧ ∀ j < kilobyteIndex x, 2 ^ j < x := by
  rw [kilobyteIndex_eq_clog hlt hpos]
  have hnine : Nat.clog 2 x ≤ 9 := by
    apply Nat.clog_le_of_le_pow
    omega
  refine ⟨Nat.lt_succ_of_le hnine, Nat.le_pow_clog Nat.one_lt_two x, fun j hj => ?_⟩
  exact (Nat.lt_clog_iff_pow_lt Nat.one_lt_two).mp hj

lemma kBlockSizes_eq (i : Fin kBlockNum) : kBlockSizes i = 2 ^ i.val * 1024 := by
  revert i
  decide

lemma getBlockIndex_spec {size : Nat} (hpos : 0 < size) (hmax : size ≤ kMemoryPoolMaxAllocate) :
    ∃ h : getBlockIndex size < kBlockNum, size ≤ kBlockSizes ⟨getBlockIndex size, h⟩ ∧
      ∀ j : Fin kBlockNum, size ≤ kBlockSizes j → kBlockSizes ⟨getBlockIndex size, h⟩ ≤ kBlockSizes j := by
  have hlimit : kMemoryPoolMaxAllocate = 524288 := by decide
  have hkilobytes : size ≤ (size + 1023) / 1024 * 1024 := by omega
  have hupper : (size + 1023) / 1024 < 513 := by omega
  have hlower : 0 < (size + 1023) / 1024 := by omega
  have hceil : ∀ n, size ≤ n * 1024 → (size + 1023) / 1024 ≤ n := by
    omega
  obtain ⟨hlt, hroom, hleast⟩ := kilobyteIndex_spec _ hupper hlower
  rw [← getBlockIndex_eq] at hlt hroom hleast
  refine ⟨hlt, ?_, ?_⟩
  · rw [kBlockSizes_eq]
    exact hkilobytes.trans (Nat.mul_le_mul_right 1024 hroom)
  · intro j hj
    rw [kBlockSizes_eq j] at hj ⊢
    rw [kBlockSizes_eq]
    refine Nat.mul_le_mul_right 1024 (Nat.pow_le_pow_right (Nat.zero_lt_two) ?_)
    by_contra hcon
    exact absurd (hceil _ hj) (Nat.not_le_of_lt (hleast j.val (Nat.lt_of_not_le hcon)))

end Classes

section Blocks

variable {a a' b k k' q : Nat} {i : Fin kBlockNum}

lemma eleSize_pos (i : Fin kBlockNum) : 0 < eleSize i := Nat.add_pos_right _ (by decide)

lemma two_le_blockNum (i : Fin kBlockNum) : 2 ≤ blockNum i := by
  revert i
  decide

lemma blockNum_mul_eleSize_le (i : Fin kBlockNum) : chunkHeaderSize + blockNum i * eleSize i ≤ kChunkSize := by
  have hdiv : blockNum i * eleSize i ≤ kChunkSize - chunkHeaderSize := Nat.div_mul_le_self _ _
  have hle : chunkHeaderSize ≤ kChunkSize := by decide
  omega

lemma blockStart_bounds (hk : k < blockNum i) :
    a + chunkHeaderSize ≤ blockStart a i k ∧ blockStart a i k + eleSize i ≤ a + kChunkSize := by
  have hfit := blockNum_mul_eleSize_le i
  have hmul : (k + 1) * eleSize i ≤ blockNum i * eleSize i := Nat.mul_le_mul_right _ hk
  rw [Nat.succ_mul] at hmul
  unfold blockStart bufAddr
  omega

lemma blockStart_add_le (h : k < k') : blockStart a i k + eleSize i ≤ blockStart a i k' := by
  have hmul : (k + 1) * eleSize i ≤ k' * eleSize i := Nat.mul_le_mul_right _ h
  rw [Nat.succ_mul] at hmul
  unfold blockStart
  omega

lemma blockStart_injective (a : Nat) (i : Fin kBlockNum) : Function.Injective (blockStart a i) := by
  intro k k' h
  have hpos := eleSize_pos i
  rcases Nat.lt_trichotomy k k' with hlt | heq | hgt
  · have := blockStart_add_le (a := a) (i := i) hlt
    omega
  · exact heq
  · have := blockStart_add_le (a := a) (i := i) hgt
    omega

lemma nodup_blocksOf (a : Nat) (i : Fin kBlockNum) : (blocksOf a i).Nodup :=
  Nodup.map (blockStart_injective a i) List.nodup_range

lemma nodup_ptrsOf (a : Nat) (i : Fin kBlockNum) : (ptrsOf a i).Nodup :=
  Nodup.map (add_left_injective _) (nodup_blocksOf a i)

lemma mem_blocksOf : b ∈ blocksOf a i ↔ ∃ k < blockNum i, blockStart a i k = b := by
  simp [blocksOf]

lemma mem_ptrsOf : q ∈ ptrsOf a i ↔ ∃ k < blockNum i, blockStart a i k + blockHeaderSize = q := by
  simp [ptrsOf, blocksOf]

lemma length_ptrsOf : (ptrsOf a i).length = blockNum i := by simp [ptrsOf, blocksOf]

lemma inChunk_iff : inChunk a q = true ↔ a ≤ q ∧ q < a + kChunkSize := by simp [inChunk]

lemma inChunk_of_mem_blocksOf (h : b ∈ blocksOf a i) : inChunk a b = true := by
  obtain ⟨k, hk, rfl⟩ := mem_blocksOf.mp h
  have hbounds := blockStart_bounds (a := a) hk
  have hpos := eleSize_pos i
  rw [inChunk_iff]
  omega

lemma inChunk_of_mem_ptrsOf (h : q ∈ ptrsOf a i) : inChunk a q = true := by
  obtain ⟨k, hk, rfl⟩ := mem_ptrsOf.mp h
  have hbounds := blockStart_bounds (a := a) hk
  have hsize : kBlockSizes i + blockHeaderSize = eleSize i := rfl
  have hpos : 0 < kBlockSizes i := by rw [kBlockSizes_eq]; positivity
  rw [inChunk_iff]
  omega

structure ChunksApart (chunks : List Nat) : Prop where
  nodup : chunks.Nodup
  pos : ∀ a ∈ chunks, 0 < a
  apart : ∀ a ∈ chunks, ∀ b ∈ chunks, a ≠ b → RangesApart a kChunkSize b kChunkSize

lemma ChunksApart.eq_of_inChunk {chunks : List Nat} (h : ChunksApart chunks) (ha : a ∈ chunks)
    (ha' : a' ∈ chunks) (hq : inChunk a q = true) (hq' : inChunk a' q = true) : a = a' := by
  by_contra hne
  have hapart := h.apart a ha a' ha' hne
  unfold RangesApart at hapart
  rw [inChunk_iff] at hq hq'
  omega

end Blocks

end Vesal.Proofs
