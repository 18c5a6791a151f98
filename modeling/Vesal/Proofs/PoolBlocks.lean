import Vesal.Proofs.PoolStore

/-! # The blocks of one chunk -/

namespace Vesal.Proofs

open Library List Function PoolMemory

variable {chunks bs : List Nat} {m : PoolMemory} {a a' b c e n p q : Nat} {i : Fin kBlockNum}

lemma sameChunk_setLinks (links : Links) : SameChunk m (m.setLinks links) a :=
  ⟨rfl, rfl, rfl, rfl, fun _ _ => rfl, fun _ _ => rfl⟩

section PopAndPush

lemma sameChunk_popBlock (hne : a' ≠ a) : SameChunk m (m.popBlock a) a' where
  cache := rfl
  total := rfl
  available := by simp [PoolMemory.popBlock, hne]
  head := by simp [PoolMemory.popBlock, hne]
  chunk _ _ := rfl
  nextBlock _ _ := rfl

lemma ChunkBuilt.popBlock (h : ChunkBuilt m (b :: bs) c i a) : ChunkBuilt (m.popBlock a) bs c i a := by
  obtain ⟨hhead, _, hrest⟩ := h.path
  refine
    { cache := h.cache
      total := h.total
      available := ?_
      path := ?_
      chunk := h.chunk }
  · simp [PoolMemory.popBlock, h.available]
  · simpa [PoolMemory.popBlock, hhead] using hrest

lemma sameChunk_pushBlock (hne : a' ≠ a) (hb : inChunk a' b = false) : SameChunk m (m.pushBlock a b) a' where
  cache := rfl
  total := rfl
  available := by simp [PoolMemory.pushBlock, hne]
  head := by simp [PoolMemory.pushBlock, hne]
  chunk _ _ := rfl
  nextBlock b' hb' := by
    have hne' : b' ≠ b := by
      rintro rfl
      rw [hb] at hb'
      cases hb'
    simp [PoolMemory.pushBlock, hne']

lemma ChunkBuilt.pushBlock (h : ChunkBuilt m bs c i a) (hb : b ≠ 0) (hnot : b ∉ bs) :
    ChunkBuilt (m.pushBlock a b) (b :: bs) c i a := by
  refine
    { cache := h.cache
      total := h.total
      available := ?_
      path := ⟨?_, hb, ?_⟩
      chunk := h.chunk }
  · simp [PoolMemory.pushBlock, h.available]
  · simp [PoolMemory.pushBlock]
  · have hnext : (m.pushBlock a b).nextBlock b = m.head a := by simp [PoolMemory.pushBlock]
    rw [hnext]
    refine h.path.congr fun b' hb' => ?_
    have hne : b' ≠ b := ne_of_mem_of_not_mem hb' hnot
    simp [PoolMemory.pushBlock, hne]

end PopAndPush

section Building

def stride (p e : Nat) : Nat → List Nat
  | 0 => [p]
  | n + 1 => p :: stride (p + e) e n

lemma mem_stride : q ∈ stride p e n ↔ ∃ k ≤ n, q = p + k * e := by
  induction n generalizing p with
  | zero => simp [stride]
  | succ n ih =>
    rw [stride, mem_cons, ih]
    constructor
    · rintro (rfl | ⟨k, hk, rfl⟩)
      · exact ⟨0, Nat.zero_le _, by simp⟩
      · exact ⟨k + 1, Nat.succ_le_succ hk, by ring⟩
    · rintro ⟨k, hk, rfl⟩
      cases k with
      | zero => left; simp
      | succ k => exact Or.inr ⟨k, Nat.le_of_succ_le_succ hk, by ring⟩

lemma stride_eq_map : stride p e n = (range (n + 1)).map fun k => p + k * e := by
  induction n generalizing p with
  | zero => simp [stride]
  | succ n ih =>
    rw [range_succ_eq_map, map_cons, map_map, stride, ih, Nat.zero_mul, Nat.add_zero]
    congr 1
    refine map_congr_left fun k _ => ?_
    simp only [comp_apply, Nat.succ_eq_add_one]
    ring

lemma blocksOf_eq_stride (a : Nat) (i : Fin kBlockNum) :
    blocksOf a i = stride (bufAddr a) (eleSize i) (blockNum i - 1) := by
  have hpos := two_le_blockNum i
  rw [stride_eq_map, Nat.sub_add_cancel (by omega)]
  rfl

lemma buildLoop_off (hq : q ∉ stride p e n) :
    (m.buildLoop a e n p).chunk q = m.chunk q ∧ (m.buildLoop a e n p).nextBlock q = m.nextBlock q := by
  induction n generalizing p m with
  | zero =>
    have hne : q ≠ p := by simpa [stride] using hq
    simp [buildLoop, hne]
  | succ n ih =>
    rw [stride, mem_cons, not_or] at hq
    rw [buildLoop, (ih hq.2).1, (ih hq.2).2]
    simp [hq.1]

lemma buildLoop_fields (a e n p : Nat) (m : PoolMemory) :
    (m.buildLoop a e n p).links = m.links ∧ (m.buildLoop a e n p).cache = m.cache ∧
      (m.buildLoop a e n p).totalBlockNum = m.totalBlockNum ∧
      (m.buildLoop a e n p).availableBlockNum = m.availableBlockNum ∧ (m.buildLoop a e n p).head = m.head := by
  induction n generalizing p m with
  | zero => exact ⟨rfl, rfl, rfl, rfl, rfl⟩
  | succ n ih => exact ih (p + e) _

lemma buildLoop_path (hp : 0 < p) (he : 0 < e) :
    LinkPath (m.buildLoop a e n p).nextBlock p (stride p e n) 0 ∧
      ∀ q ∈ stride p e n, (m.buildLoop a e n p).chunk q = a := by
  induction n generalizing p m with
  | zero =>
    refine ⟨⟨rfl, hp.ne', ?_⟩, ?_⟩
    · simp [buildLoop, LinkPath]
    · intro q hq
      obtain rfl : q = p := by simpa [stride] using hq
      simp [buildLoop]
  | succ n ih =>
    have hnot : p ∉ stride (p + e) e n := by
      intro hmem
      obtain ⟨k, _, hk⟩ := mem_stride.mp hmem
      omega
    have hrest : 0 < p + e := Nat.add_pos_left hp e
    refine ⟨⟨rfl, hp.ne', ?_⟩, ?_⟩
    · rw [buildLoop, (buildLoop_off hnot).2]
      simpa using (ih hrest).1
    · intro q hq
      rw [buildLoop]
      rcases mem_cons.mp hq with rfl | hq
      · rw [(buildLoop_off hnot).1]
        simp
      · exact (ih hrest).2 q hq

lemma buildChunk_eq : m.buildChunk (c, i) (kBlockSizes i) a =
    (m.startChunk (c, i) (blockNum i) a).buildLoop a (eleSize i) (blockNum i - 1) (bufAddr a) := rfl

lemma built_buildChunk (ha : 0 < a) : ChunkBuilt (m.buildChunk (c, i) (kBlockSizes i) a) (blocksOf a i) c i a := by
  have hbuf : 0 < bufAddr a := Nat.add_pos_left ha _
  rw [buildChunk_eq]
  obtain ⟨_, hcache, htotal, havailable, hhead⟩ := buildLoop_fields a (eleSize i) (blockNum i - 1) (bufAddr a)
    (m.startChunk (c, i) (blockNum i) a)
  refine
    { cache := ?_
      total := ?_
      available := ?_
      path := ?_
      chunk := ?_ }
  · rw [hcache]
    simp [startChunk]
  · rw [htotal]
    simp [startChunk]
  · rw [havailable]
    simp [startChunk, blocksOf]
  · rw [hhead, blocksOf_eq_stride]
    simpa [startChunk] using (buildLoop_path hbuf (eleSize_pos i)).1
  · rw [blocksOf_eq_stride]
    exact (buildLoop_path hbuf (eleSize_pos i)).2

lemma sameChunk_buildChunk (hchunks : ChunksApart chunks) (ha : a ∈ chunks) (ha' : a' ∈ chunks) (hne : a' ≠ a) :
    SameChunk m (m.buildChunk (c, i) (kBlockSizes i) a) a' := by
  rw [buildChunk_eq]
  obtain ⟨_, hcache, htotal, havailable, hhead⟩ := buildLoop_fields a (eleSize i) (blockNum i - 1) (bufAddr a)
    (m.startChunk (c, i) (blockNum i) a)
  have hoff : ∀ b, inChunk a' b = true → b ∉ stride (bufAddr a) (eleSize i) (blockNum i - 1) := by
    intro b hb hmem
    rw [← blocksOf_eq_stride] at hmem
    exact hne (hchunks.eq_of_inChunk ha' ha hb (inChunk_of_mem_blocksOf hmem))
  refine
    { cache := ?_
      total := ?_
      available := ?_
      head := ?_
      chunk := fun b hb => (buildLoop_off (hoff b hb)).1
      nextBlock := fun b hb => (buildLoop_off (hoff b hb)).2 }
  · rw [hcache]
    simp [startChunk, hne]
  · rw [htotal]
    simp [startChunk, hne]
  · rw [havailable]
    simp [startChunk, hne]
  · rw [hhead]
    simp [startChunk, hne]

lemma buildBlocks_spec (hchunks : ChunksApart chunks) {xs : List Nat} {fuel : Nat} (hfuel : xs.length ≤ fuel)
    (hpath : LinkPath m.links.next p xs 0) (hxs : ∀ a ∈ xs, a ∈ chunks) (hnodup : xs.Nodup) :
    (m.buildBlocks (c, i) (kBlockSizes i) fuel p).links = m.links ∧
      (∀ a ∈ xs, ChunkBuilt (m.buildBlocks (c, i) (kBlockSizes i) fuel p) (blocksOf a i) c i a) ∧
      ∀ a ∈ chunks, a ∉ xs → SameChunk m (m.buildBlocks (c, i) (kBlockSizes i) fuel p) a := by
  induction xs generalizing p m fuel with
  | nil =>
    obtain rfl : p = 0 := hpath
    have hsame : m.buildBlocks (c, i) (kBlockSizes i) fuel 0 = m := by cases fuel <;> rfl
    rw [hsame]
    exact ⟨rfl, fun a ha => absurd ha not_mem_nil, fun a _ _ => SameChunk.refl m a⟩
  | cons x xs ih =>
    obtain ⟨rfl, hp, hrest⟩ := hpath
    obtain ⟨hpx, hnodup⟩ := nodup_cons.mp hnodup
    have hpmem : p ∈ chunks := hxs p mem_cons_self
    cases fuel with
    | zero => exact absurd hfuel (Nat.not_succ_le_zero _)
    | succ fuel =>
      rw [buildBlocks, if_neg hp]
      have hlinks : (m.buildChunk (c, i) (kBlockSizes i) p).links = m.links := (buildLoop_fields _ _ _ _ _).1
      obtain ⟨hlinks', hbuilt, hsame⟩ := ih (m := m.buildChunk (c, i) (kBlockSizes i) p)
        (Nat.le_of_succ_le_succ hfuel) (by rw [hlinks]; exact hrest)
        (fun a ha => hxs a (mem_cons_of_mem p ha)) hnodup
      refine ⟨hlinks'.trans hlinks, ?_, ?_⟩
      · intro a ha
        rcases mem_cons.mp ha with rfl | ha
        · exact (built_buildChunk (hchunks.pos a hpmem)).congr (hsame a hpmem hpx) fun b hb => hb
        · exact hbuilt a ha
      · intro a ha hnot
        rw [mem_cons, not_or] at hnot
        exact (sameChunk_buildChunk hchunks hpmem ha hnot.1).trans (hsame a ha hnot.2)

end Building

end Vesal.Proofs
