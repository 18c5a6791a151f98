import Vesal.Proofs.PoolSteps

/-! # Every block of a pool is in one place -/

namespace Vesal

open Library

namespace ChunkPool

def centralChunks (p : ChunkPool) : List Nat := pathList p.memory.links.next p.chunkNum p.chunks

def freeBlocks (p : ChunkPool) (a : Nat) : List Nat :=
  pathList p.memory.nextBlock (p.memory.totalBlockNum a) (p.memory.head a)

def blockHeader (p : ChunkPool) (a k : Nat) : Nat :=
  bufAddr a + k * (kBlockSizes (p.memory.cache a).2 + blockHeaderSize)

def blockPtr (p : ChunkPool) (a k : Nat) : Nat := p.blockHeader a k + blockHeaderSize

def chunksInUse (p : ChunkPool) (rs : PoolRegions) : List Nat :=
  rs.chunks.filter fun a => !p.centralChunks.contains a

end ChunkPool

end Vesal

namespace Vesal.Proofs

open Library

structure BlocksExclusive (rs : PoolRegions) (r : PoolRun) : Prop where
  apart : r.live.Pairwise fun b b' => RangesApart b.1 b.2 b'.1 b'.2
  chunkHeaders : ∀ b ∈ r.live, ∀ a ∈ rs.chunks, RangesApart b.1 b.2 a chunkHeaderSize
  blockHeaders : ∀ b ∈ r.live, ∀ a ∈ r.pool.chunksInUse rs, ∀ k < r.pool.memory.totalBlockNum a,
    RangesApart b.1 b.2 (r.pool.blockHeader a k) blockHeaderSize
  inside : ∀ b ∈ r.live, ∃ a ∈ r.pool.chunksInUse rs, ∃ k < r.pool.memory.totalBlockNum a,
    b.1 = r.pool.blockPtr a k ∧ a ≤ b.1 ∧ b.1 + b.2 ≤ a + kChunkSize ∧ ClassFits b.2 (r.pool.memory.cache a).2
  once : ∀ a ∈ r.pool.chunksInUse rs, ∀ k < r.pool.memory.totalBlockNum a,
    (r.live.map Prod.fst).count (r.pool.blockPtr a k) +
      (r.pool.caches (r.pool.memory.cache a).1).threadDeallocateTasks.count (r.pool.blockPtr a k) +
      (r.pool.freeBlocks a).count (r.pool.blockHeader a k) = 1
  queued : ∀ c, ∀ q ∈ (r.pool.caches c).threadDeallocateTasks, ∃ a ∈ r.pool.chunksInUse rs,
    (r.pool.memory.cache a).1 = c ∧ ∃ k < r.pool.memory.totalBlockNum a, q = r.pool.blockPtr a k
  listed : ∀ a ∈ r.pool.chunksInUse rs, ∀ b ∈ r.pool.freeBlocks a,
    ∃ k < r.pool.memory.totalBlockNum a, b = r.pool.blockHeader a k

variable {chunks xs ys : List Nat} {p : ChunkPool} {v : PoolView} {r : PoolRun} {rs : PoolRegions} {a b c k q : Nat}
  {i i' : Fin kBlockNum}

section Init

lemma pairwise_chunks (region : PoolRegion) :
    region.chunks.Pairwise fun a b => RangesApart a kChunkSize b kChunkSize := by
  unfold PoolRegion.chunks
  rw [List.pairwise_map]
  refine List.pairwise_lt_range.imp fun {j j'} hlt => ?_
  have hmul : (j + 1) * kChunkSize ≤ j' * kChunkSize := Nat.mul_le_mul_right _ hlt
  rw [Nat.succ_mul] at hmul
  left
  omega

lemma mem_region_chunks {region : PoolRegion} (h : a ∈ region.chunks) :
    region.virtualAddr ≤ a ∧ a + kChunkSize ≤ region.virtualAddr + region.len := by
  obtain ⟨j, hj, rfl⟩ := List.mem_map.mp h
  rw [List.mem_range] at hj
  have hmul : (j + 1) * kChunkSize ≤ region.len / kChunkSize * kChunkSize := Nat.mul_le_mul_right _ hj
  have hdiv : region.len / kChunkSize * kChunkSize ≤ region.len := Nat.div_mul_le_self _ _
  rw [Nat.succ_mul] at hmul
  omega

lemma chunksApart (rs : PoolRegions) : ChunksApart rs.chunks := by
  have hpairwise : rs.chunks.Pairwise fun a b => RangesApart a kChunkSize b kChunkSize := by
    unfold PoolRegions.chunks
    rw [List.pairwise_flatMap]
    refine ⟨fun region _ => pairwise_chunks region, rs.disjoint.imp ?_⟩
    intro region region' hdisjoint a ha b hb
    have hbounds := mem_region_chunks ha
    have hbounds' := mem_region_chunks hb
    unfold RangesApart
    omega
  have hpositive : 0 < kChunkSize := by decide
  refine ⟨?_, ?_, ?_⟩
  · refine hpairwise.imp fun {a b} hapart => ?_
    rintro rfl
    unfold RangesApart at hapart
    omega
  · intro a ha
    obtain ⟨region, hregion, ha⟩ := List.mem_flatMap.mp ha
    exact (rs.mapped region hregion).trans_le (mem_region_chunks ha).1
  · intro a ha b hb hne
    have hsymm : Std.Symm fun a b => RangesApart a kChunkSize b kChunkSize := ⟨fun _ _ hapart => hapart.symm⟩
    exact hpairwise.forall ha hb hne

structure Preallocated (p : ChunkPool) (ys : List Nat) : Prop where
  isList : p.memory.links.IsList p.chunks ys
  untouched : ∀ y, y ∉ ys → p.memory.links.prev y = 0
  caches : p.caches = fun _ => TLSCache.new
  tlsCaches : p.tlsCaches = []
  orphans : p.orphanTlsCaches = []

lemma Preallocated.addChunk (h : Preallocated p ys) (hnodup : (a :: ys).Nodup) (ha : a ≠ 0) :
    Preallocated (p.addChunk a) (a :: ys) where
  isList := by
    have hback : BackPath p.memory.links.prev 0 ([] ++ [a]) := ⟨h.untouched a (List.nodup_cons.mp hnodup).1, trivial⟩
    have hstart : LinkPath p.memory.links.next a [] a := rfl
    exact Links.isList_joinAfter hstart ha hback h.isList.path h.isList.back hnodup
  untouched y hy := by
    rw [List.mem_cons, not_or] at hy
    have hsame := Links.sameOff_joinAfter h.isList.path (List.mem_cons_self (a := a)) (fun y => List.mem_cons_of_mem a)
    exact (hsame y (by simpa using hy)).1.trans (h.untouched y hy.2)
  caches := h.caches
  tlsCaches := h.tlsCaches
  orphans := h.orphans

lemma Preallocated.addChunks (h : Preallocated p ys) (hnodup : (xs.reverse ++ ys).Nodup) (hpos : ∀ a ∈ xs, a ≠ 0) :
    Preallocated (xs.foldl ChunkPool.addChunk p) (xs.reverse ++ ys) ∧ (xs.foldl ChunkPool.addChunk p).chunkNum = p.chunkNum := by
  induction xs generalizing p ys with
  | nil => exact ⟨h, rfl⟩
  | cons a xs ih =>
    rw [List.reverse_cons, List.append_assoc, List.singleton_append] at hnodup ⊢
    have hpre := h.addChunk (List.nodup_append'.mp hnodup).2.1 (hpos a List.mem_cons_self)
    exact ih hpre hnodup fun b hb => hpos b (List.mem_cons_of_mem a hb)

lemma length_chunks (region : PoolRegion) : region.chunks.length = region.len / kChunkSize := by
  simp [PoolRegion.chunks]

lemma Preallocated.splitRegions {regions : List PoolRegion} (h : Preallocated p ys) (hnum : p.chunkNum = ys.length)
    (hnodup : ((regions.flatMap PoolRegion.chunks).reverse ++ ys).Nodup)
    (hpos : ∀ a ∈ regions.flatMap PoolRegion.chunks, a ≠ 0) :
    Preallocated (regions.foldl ChunkPool.splitRegion p) ((regions.flatMap PoolRegion.chunks).reverse ++ ys) ∧
      (regions.foldl ChunkPool.splitRegion p).chunkNum = ((regions.flatMap PoolRegion.chunks).reverse ++ ys).length := by
  induction regions generalizing p ys with
  | nil => exact ⟨h, hnum⟩
  | cons region regions ih =>
    rw [List.flatMap_cons, List.reverse_append, List.append_assoc] at hnodup ⊢
    have hcount : Preallocated { p with chunkNum := p.chunkNum + region.len / kChunkSize } ys :=
      ⟨h.isList, h.untouched, h.caches, h.tlsCaches, h.orphans⟩
    obtain ⟨hpre, hsame⟩ := hcount.addChunks (List.nodup_append'.mp hnodup).2.1
      fun a ha => hpos a (List.mem_append_left _ ha)
    refine ih hpre ?_ hnodup fun a ha => hpos a (List.mem_append_right _ ha)
    rw [ChunkPool.splitRegion, hsame, List.length_append, List.length_reverse, length_chunks]
    dsimp only
    omega

def initView (rs : PoolRegions) : PoolView where
  lists
    | .central => rs.chunks.reverse
    | _ => []
  free _ := []

lemma not_held_initView : ¬ (initView rs).Held c i a := by
  rintro ⟨place, howner, ha⟩
  cases place with
  | central => cases howner
  | recyclable c i => cases ha
  | available c i => cases ha
  | full c i => cases ha

lemma placed_initView (rs : PoolRegions) : Placed rs.chunks (initView rs).lists where
  nodup place := by
    cases place with
    | central => exact List.nodup_reverse.mpr (chunksApart rs).nodup
    | recyclable c i => exact List.nodup_nil
    | available c i => exact List.nodup_nil
    | full c i => exact List.nodup_nil
  eq_of_mem place place' a ha ha' := by
    cases place <;> cases place' <;> simp [initView] at ha ha' ⊢
  mem_iff a := by
    constructor
    · intro ha
      exact ⟨.central, List.mem_reverse.mpr ha⟩
    · rintro ⟨place, ha⟩
      cases place with
      | central => exact List.mem_reverse.mp ha
      | recyclable c i => cases ha
      | available c i => cases ha
      | full c i => cases ha

lemma preallocated_init (rs : PoolRegions) :
    Preallocated (rs.regions.foldl ChunkPool.splitRegion ChunkPool.empty) (rs.chunks.reverse ++ []) ∧
      (rs.regions.foldl ChunkPool.splitRegion ChunkPool.empty).chunkNum = (rs.chunks.reverse ++ []).length := by
  have hempty : Preallocated ChunkPool.empty [] := ⟨⟨rfl, trivial⟩, fun _ _ => rfl, rfl, rfl, rfl⟩
  have happart := chunksApart rs
  have hnodup : (rs.chunks.reverse ++ []).Nodup := by simpa using happart.nodup
  exact hempty.splitRegions rfl hnodup fun a ha => (happart.pos a ha).ne'

lemma poolInv_init (rs : PoolRegions) : PoolInv rs.chunks (PoolRun.init rs) (initView rs) := by
  obtain ⟨hpre, hnum⟩ := preallocated_init rs
  have hcaches : (PoolRun.init rs).pool.caches = fun _ => TLSCache.new := hpre.caches
  have htasks : ∀ c, tasksOf (PoolRun.init rs).pool c = [] := by
    intro c
    rw [tasksOf, hcaches]
    rfl
  have hlists : (initView rs).lists .central = rs.chunks.reverse ++ [] := (List.append_nil _).symm
  have hstored : Stored rs.chunks (PoolRun.init rs).pool [] (initView rs) := by
    refine ⟨placed_initView rs, ?_, ?_, ?_, ?_, ?_, ?_⟩
    · intro place head hhead
      cases place with
      | central =>
        obtain rfl := Option.some.inj hhead
        rw [hlists]
        exact hpre.isList
      | recyclable c i =>
        obtain rfl := Option.some.inj hhead
        rw [ChunkPool.blockCache, hcaches]
        exact ⟨rfl, trivial⟩
      | available c i =>
        obtain rfl := Option.some.inj hhead
        rw [ChunkPool.blockCache, hcaches]
        exact ⟨rfl, trivial⟩
      | full c i => cases hhead
    · rw [hlists]
      exact hnum
    · refine hnum.trans ?_
      rw [List.append_nil, List.length_reverse]
    · intro place c i a howner ha
      exact (not_held_initView ⟨place, howner, ha⟩).elim
    · intro q hq
      cases hq
    · intro c q hq
      rw [htasks] at hq
      cases hq
  have hused : ∀ c, (initView rs).usedNum c = 0 ∧ (initView rs).recyclableNum c = 0 := by
    simp [PoolView.usedNum, PoolView.recyclableNum, initView]
  refine ⟨hstored, ?_, ?_, ?_, ?_, ?_, ?_, ?_, ?_, ?_, ?_, ?_⟩
  · intro c
    refine ⟨?_, ?_⟩
    · rw [hcaches, (hused c).1]
      rfl
    · rw [(hused c).2]
      exact Nat.zero_le _
  · intro c i a hheld
    exact (not_held_initView hheld).elim
  · intro t c hc
    cases hc
  · intro t t' c hc
    cases hc
  · intro c hc
    have horphans : (PoolRun.init rs).pool.orphanTlsCaches = [] := hpre.orphans
    rw [horphans] at hc
    cases hc
  · have horphans : (PoolRun.init rs).pool.orphanTlsCaches = [] := hpre.orphans
    rw [horphans]
    exact List.nodup_nil
  · intro c t hc
    have htlsCaches : (PoolRun.init rs).pool.tlsCaches = [] := hpre.tlsCaches
    rw [htlsCaches] at hc
    cases hc
  · intro t
    exact Or.inl rfl
  · intro t ptr hp
    cases hp
  · intro t t' ptr hp
    cases hp
  · intro b hb
    cases hb

end Init

section Fetch

variable {opt : MemoryPoolInitOption} {r' : PoolRun} {x : Nat × ChunkPool}

section

variable (hfetch : opt.fetchChunkNum = 0)
include hfetch

lemma getBlock_of_no_fetch (h : p.getBlock opt c i = .ok x) :
    p.getBlock { opt with fetchChunkNum := 1 } c i = .ok x := by
  unfold ChunkPool.getBlock at h ⊢
  split
  · rename_i havailable
    rw [if_pos havailable] at h
    exact h
  · rename_i havailable
    rw [if_neg havailable] at h
    split
    · rename_i hrecyclable
      rw [if_pos hrecyclable] at h
      exact h
    · rename_i hrecyclable
      have herror : p.getChunks opt.fetchChunkNum = .error .nullPointer := by
        unfold ChunkPool.getChunks
        rw [hfetch, if_neg (Nat.not_lt_zero _), if_pos rfl]
      rw [if_neg hrecyclable, herror] at h
      cases h

lemma runGetBlock_of_no_fetch {t size : Nat} {drained : Bool} (h : r.getBlock opt t c size drained = .ok r') :
    r.getBlock { opt with fetchChunkNum := 1 } t c size drained = .ok r' := by
  unfold PoolRun.getBlock at h ⊢
  split
  · rename_i hindex
    rw [dif_pos hindex] at h
    dsimp only at h ⊢
    split
    · rename_i hdeferred
      rw [if_pos hdeferred] at h
      exact h
    · rename_i hdeferred
      rw [if_neg hdeferred] at h
      cases hget : r.pool.getBlock opt c ⟨getBlockIndex size, hindex⟩ with
      | error fault =>
        rw [hget] at h
        cases h
      | ok x =>
        rw [hget] at h
        rw [getBlock_of_no_fetch hfetch hget]
        exact h
  · rename_i hindex
    rw [dif_neg hindex] at h
    cases h

lemma poolStep_of_no_fetch {ev : PoolEvent} (h : poolStep opt r ev = .ok r') :
    poolStep { opt with fetchChunkNum := 1 } r ev = .ok r' := by
  cases ev with
  | allocate t size => exact h
  | deallocate t ptr => exact h
  | exit t => exact h
  | adopt t fresh => exact h
  | advance t =>
    unfold poolStep at h ⊢
    dsimp only at h ⊢
    split
    · rename_i hcache
      rw [hcache] at h
      exact h
    · rename_i c hcache
      rw [hcache] at h
      unfold PoolRun.advance at h ⊢
      cases hstage : (r.threads t).stage with
      | getBlock size =>
        rw [hstage] at h
        exact runGetBlock_of_no_fetch hfetch h
      | takeBlock size =>
        rw [hstage] at h
        exact runGetBlock_of_no_fetch hfetch h
      | _ =>
        rw [hstage] at h
        exact h

end

end Fetch

/-- Every state of a run satisfies the invariant. -/
theorem PoolRuns.poolInv {opt : MemoryPoolInitOption} (hruns : PoolRuns opt (PoolRun.init rs) r) :
    ∃ v, PoolInv rs.chunks r v := by
  refine Runs.invariant (P := fun r => ∃ v, PoolInv rs.chunks r v) hruns ⟨_, poolInv_init rs⟩ ?_
  rintro r ev r' ⟨v, h⟩ hallowed hstep
  by_cases hfetch : opt.fetchChunkNum = 0
  · have hstep := poolStep_of_no_fetch hfetch hstep
    have hone : 0 < ({ opt with fetchChunkNum := 1 } : MemoryPoolInitOption).fetchChunkNum := Nat.one_pos
    obtain ⟨r'', v', hstep', hinv⟩ := h.step (chunksApart rs) hone hallowed
    obtain rfl : r' = r'' := Except.ok.inj (hstep.symm.trans hstep')
    exact ⟨v', hinv⟩
  · obtain ⟨r'', v', hstep', hinv⟩ := h.step (chunksApart rs) (Nat.pos_of_ne_zero hfetch) hallowed
    obtain rfl : r' = r'' := Except.ok.inj (hstep.symm.trans hstep')
    exact ⟨v', hinv⟩

section Blocks

lemma PoolInv.centralChunks_eq (h : PoolInv chunks r v) : r.pool.centralChunks = v.lists .central :=
  (h.stored.linked .central _ rfl).path.pathList_eq _ h.stored.chunkNum.ge

lemma PoolInv.mem_chunksInUse (h : PoolInv rs.chunks r v) :
    a ∈ r.pool.chunksInUse rs ↔ ∃ c i, v.Held c i a := by
  have hmem : a ∈ r.pool.chunksInUse rs ↔ a ∈ rs.chunks ∧ a ∉ v.lists .central := by
    rw [ChunkPool.chunksInUse, List.mem_filter, h.centralChunks_eq]
    simp
  rw [hmem, h.stored.placed.mem_iff a]
  constructor
  · rintro ⟨⟨place, ha⟩, hcentral⟩
    cases place with
    | central => exact absurd ha hcentral
    | recyclable c i => exact ⟨c, i, .recyclable c i, rfl, ha⟩
    | available c i => exact ⟨c, i, .available c i, rfl, ha⟩
    | full c i => exact ⟨c, i, .full c i, rfl, ha⟩
  · rintro ⟨c, i, place, howner, ha⟩
    refine ⟨⟨place, ha⟩, fun hcentral => ?_⟩
    rw [h.stored.placed.eq_of_mem place .central a ha hcentral] at howner
    cases howner

lemma PoolInv.built (h : PoolInv chunks r v) (hheld : v.Held c i a) :
    ChunkBuilt r.pool.memory (v.free a) c i a ∧ Spread (v.free a) (liveOf r) (tasksOf r.pool c) i a := by
  obtain ⟨place, howner, ha⟩ := hheld
  have hchunk := h.stored.chunkAt place c i a howner ha
  exact ⟨hchunk.built, hchunk.spread⟩

lemma PoolInv.blockHeader_eq (h : PoolInv chunks r v) (hheld : v.Held c i a) (k : Nat) :
    r.pool.blockHeader a k = blockStart a i k := by
  rw [ChunkPool.blockHeader, (h.built hheld).1.cache]
  rfl

lemma PoolInv.freeBlocks_eq (h : PoolInv chunks r v) (hheld : v.Held c i a) : r.pool.freeBlocks a = v.free a := by
  obtain ⟨hbuilt, hspread⟩ := h.built hheld
  refine hbuilt.path.pathList_eq _ ?_
  rw [hbuilt.total, ← hspread.length]
  exact Nat.le_add_right _ _

lemma blocks_apart (hchunks : ChunksApart chunks) (h : Stored chunks p xs v) {a' k' : Nat} {c' : Nat}
    (hheld : v.Held c i a) (hheld' : v.Held c' i' a') (hk : k < blockNum i) (hk' : k' < blockNum i')
    (hne : blockStart a i k ≠ blockStart a' i' k') :
    RangesApart (blockStart a i k) (eleSize i) (blockStart a' i' k') (eleSize i') := by
  have hbounds := blockStart_bounds (a := a) hk
  have hbounds' := blockStart_bounds (a := a') hk'
  by_cases ha : a = a'
  · subst ha
    obtain ⟨place, howner, ha⟩ := hheld
    obtain ⟨place', howner', ha'⟩ := hheld'
    rw [h.placed.eq_of_mem place' place a ha' ha, howner] at howner'
    obtain rfl : i = i' := congrArg Prod.snd (Option.some.inj howner')
    rcases Nat.lt_trichotomy k k' with hlt | heq | hgt
    · exact Or.inl (blockStart_add_le hlt)
    · exact absurd (by rw [heq]) hne
    · exact Or.inr (blockStart_add_le hgt)
  · have hapart := hchunks.apart a (h.mem_chunks_of_held hheld) a' (h.mem_chunks_of_held hheld') ha
    unfold RangesApart at hapart ⊢
    omega

lemma PoolInv.count_eq_one (h : PoolInv chunks r v) (hheld : v.Held c i a) (hk : k < blockNum i) :
    (liveOf r).count (blockStart a i k + blockHeaderSize) + (tasksOf r.pool c).count (blockStart a i k + blockHeaderSize) +
      (v.free a).count (blockStart a i k) = 1 := by
  have hspread := (h.built hheld).2
  have hptr : blockStart a i k + blockHeaderSize ∈ ptrsOf a i := mem_ptrsOf.mpr ⟨k, hk, rfl⟩
  have hcount := hspread.count_eq (blockStart a i k + blockHeaderSize)
  rw [List.count_eq_one_of_mem (nodup_ptrsOf a i) hptr, List.count_append, takenOf,
    List.count_filter (inChunk_of_mem_ptrsOf hptr), List.count_append,
    List.count_map_of_injective _ _ (add_left_injective blockHeaderSize)] at hcount
  omega

end Blocks

section Exclusive

variable {b : Nat × Nat}

lemma PoolInv.live_block (h : PoolInv chunks r v) (hb : b ∈ r.live) :
    ∃ c i a k, v.Held c i a ∧ k < blockNum i ∧ b.1 = blockStart a i k + blockHeaderSize ∧ ClassFits b.2 i := by
  obtain ⟨c, i, a, hheld, hptr, hclass⟩ := h.sized b hb
  obtain ⟨k, hk, heq⟩ := mem_ptrsOf.mp hptr
  exact ⟨c, i, a, k, hheld, hk, heq.symm, hclass⟩

lemma PoolInv.nodup_live (h : PoolInv chunks r v) : (r.live.map Prod.fst).Nodup := by
  rw [List.nodup_iff_count_le_one]
  intro q
  by_cases hq : q ∈ r.live.map Prod.fst
  · obtain ⟨b, hb, rfl⟩ := List.mem_map.mp hq
    obtain ⟨c, i, a, k, hheld, hk, heq, _⟩ := h.live_block hb
    have hone := h.count_eq_one hheld hk
    rw [← heq] at hone
    unfold liveOf at hone
    omega
  · rw [List.count_eq_zero_of_not_mem hq]
    exact Nat.zero_le 1

lemma PoolInv.live_apart (hchunks : ChunksApart chunks) (h : PoolInv chunks r v) :
    r.live.Pairwise fun b b' => RangesApart b.1 b.2 b'.1 b'.2 := by
  have hne : r.live.Pairwise fun b b' => b.1 ≠ b'.1 := List.pairwise_map.mp h.nodup_live
  refine hne.imp_of_mem fun {b b'} hb hb' hne => ?_
  obtain ⟨c, i, a, k, hheld, hk, heq, hroom, _⟩ := h.live_block hb
  obtain ⟨c', i', a', k', hheld', hk', heq', hroom', _⟩ := h.live_block hb'
  rw [heq, heq'] at hne
  have hapart := blocks_apart hchunks h.stored hheld hheld' hk hk' fun hsame => hne (by rw [hsame])
  unfold RangesApart eleSize at hapart
  rw [heq, heq']
  unfold RangesApart
  omega

lemma PoolInv.live_header_apart (hchunks : ChunksApart chunks) (h : PoolInv chunks r v) (hb : b ∈ r.live)
    (hheld : v.Held c i a) (hk : k < blockNum i) :
    RangesApart b.1 b.2 (blockStart a i k) blockHeaderSize := by
  obtain ⟨c', i', a', k', hheld', hk', heq, hroom, _⟩ := h.live_block hb
  rw [heq]
  by_cases hsame : blockStart a' i' k' = blockStart a i k
  · rw [hsame]
    exact Or.inr le_rfl
  · have hapart := blocks_apart hchunks h.stored hheld' hheld hk' hk hsame
    unfold RangesApart eleSize at hapart
    unfold RangesApart
    omega

/-- What the invariant says about the blocks. -/
theorem PoolInv.blocksExclusive (h : PoolInv rs.chunks r v) : BlocksExclusive rs r := by
  have hchunks := chunksApart rs
  refine ⟨h.live_apart hchunks, ?_, ?_, ?_, ?_, ?_, ?_⟩
  · intro b hb a ha
    obtain ⟨c, i, a', k, hheld, hk, heq, hroom, _⟩ := h.live_block hb
    have hbounds := blockStart_bounds (a := a') hk
    have hele : eleSize i = kBlockSizes i + blockHeaderSize := rfl
    have hheader : chunkHeaderSize ≤ kChunkSize := by decide
    unfold RangesApart
    by_cases hsame : a' = a
    · subst hsame
      omega
    · have hapart := hchunks.apart a' (h.stored.mem_chunks_of_held hheld) a ha hsame
      unfold RangesApart at hapart
      omega
  · intro b hb a ha k hk
    obtain ⟨c, i, hheld⟩ := h.mem_chunksInUse.mp ha
    rw [(h.built hheld).1.total] at hk
    rw [h.blockHeader_eq hheld]
    exact h.live_header_apart hchunks hb hheld hk
  · intro b hb
    obtain ⟨c, i, a, k, hheld, hk, heq, hclass⟩ := h.live_block hb
    have hbounds := blockStart_bounds (a := a) hk
    have hele : eleSize i = kBlockSizes i + blockHeaderSize := rfl
    have hroom := hclass.1
    refine ⟨a, h.mem_chunksInUse.mpr ⟨c, i, hheld⟩, k, ?_, ?_, ?_, ?_, ?_⟩
    · rwa [(h.built hheld).1.total]
    · rw [ChunkPool.blockPtr, h.blockHeader_eq hheld, heq]
    · omega
    · omega
    · rwa [(h.built hheld).1.cache]
  · intro a ha k hk
    obtain ⟨c, i, hheld⟩ := h.mem_chunksInUse.mp ha
    rw [(h.built hheld).1.total] at hk
    rw [ChunkPool.blockPtr, h.blockHeader_eq hheld, h.freeBlocks_eq hheld, (h.built hheld).1.cache]
    exact h.count_eq_one hheld hk
  · intro c q hq
    obtain ⟨i, a, hheld, hptr⟩ := h.stored.tasks_held c q hq
    obtain ⟨k, hk, heq⟩ := mem_ptrsOf.mp hptr
    refine ⟨a, h.mem_chunksInUse.mpr ⟨c, i, hheld⟩, ?_, k, ?_, ?_⟩
    · rw [(h.built hheld).1.cache]
    · rwa [(h.built hheld).1.total]
    · rw [ChunkPool.blockPtr, h.blockHeader_eq hheld, heq]
  · intro a ha b hb
    obtain ⟨c, i, hheld⟩ := h.mem_chunksInUse.mp ha
    obtain ⟨hbuilt, hspread⟩ := h.built hheld
    rw [h.freeBlocks_eq hheld] at hb
    obtain ⟨k, hk, heq⟩ := mem_blocksOf.mp (hspread.mem_blocksOf hb)
    refine ⟨k, ?_, ?_⟩
    · rwa [hbuilt.total]
    · rw [h.blockHeader_eq hheld, heq]

end Exclusive

section HandedOut

variable {opt : MemoryPoolInitOption} {r' : PoolRun} {t size : Nat}

def GivesOne (r r' : PoolRun) : Prop := r'.live.Sublist r.live ∨ ∃ b, r'.live = b :: r.live

def eventThread : PoolEvent → Nat
  | .allocate t _ => t
  | .deallocate t _ => t
  | .exit t => t
  | .adopt t _ => t
  | .advance t => t

/-- What a step of the thread `t` can do to the other threads and to the blocks that callers hold. -/
structure ActsOn (t : Nat) (r r' : PoolRun) : Prop where
  others : ∀ t' ≠ t, r'.threads t' = r.threads t'
  gives : GivesOne r r'

lemma actsOn_refl (t : Nat) (r : PoolRun) : ActsOn t r r := ⟨fun _ _ => rfl, Or.inl (List.Sublist.refl _)⟩

lemma actsOn_setThread {r₁ : PoolRun} {thread : PoolThread} (hthreads : r₁.threads = r.threads)
    (hlive : r₁.live.Sublist r.live) : ActsOn t r (r₁.setThread t thread) := by
  refine ⟨fun t' ht => ?_, Or.inl hlive⟩
  rw [← hthreads]
  exact Function.update_of_ne ht _ _

lemma actsOn_kept {r₁ : PoolRun} {thread : PoolThread} (hthreads : r₁.threads = r.threads)
    (hlive : r₁.live = r.live) : ActsOn t r (r₁.setThread t thread) :=
  actsOn_setThread hthreads (hlive ▸ List.Sublist.refl _)

lemma actsOn_giveBlock (t size ptr : Nat) : ActsOn t r (r.giveBlock t size ptr) := by
  refine ⟨fun t' ht => Function.update_of_ne ht _ _, ?_⟩
  by_cases hptr : ptr = 0
  · left
    simp [PoolRun.giveBlock, PoolRun.setThread, hptr]
  · right
    exact ⟨(ptr, size), by simp [PoolRun.giveBlock, PoolRun.setThread, hptr]⟩

lemma actsOn_enter (freeing : List Nat) (call : PoolCall) :
    ActsOn t r ({ r with freeing := freeing }.enter t call) := by
  unfold PoolRun.enter
  split <;> exact actsOn_kept rfl rfl

lemma actsOn_getBlock {drained : Bool} (h : r.getBlock opt t c size drained = .ok r') : ActsOn t r r' := by
  unfold PoolRun.getBlock at h
  split at h
  · dsimp only at h
    split at h
    · cases h
      exact actsOn_kept rfl rfl
    · split at h
      · cases h
      · cases h
        have hacts := fun r => actsOn_giveBlock (r := r) t size
        exact ⟨(hacts _ _).others, (hacts _ _).gives⟩
  · cases h

lemma actsOn_putBlock {k : AfterPut} (h : r.putBlock opt t c q k = .ok r') : ActsOn t r r' := by
  unfold PoolRun.putBlock at h
  dsimp only at h
  split at h
  · cases h
  · split at h
    · cases h
    · split at h
      · cases h
        exact actsOn_kept rfl rfl
      · cases h
        exact actsOn_setThread rfl List.eraseP_sublist

lemma actsOn_advance (h : r.advance opt t c = .ok r') : ActsOn t r r' := by
  unfold PoolRun.advance at h
  split at h
  case h_1 | h_2 => cases h
  case h_3 | h_10 | h_13 =>
    cases h
    exact actsOn_kept rfl rfl
  case h_4 | h_5 => exact actsOn_getBlock h
  case h_6 =>
    unfold PoolRun.deferred at h
    split at h
    · cases h
      exact actsOn_kept rfl rfl
    · have hacts := actsOn_putBlock h
      exact ⟨hacts.others, hacts.gives⟩
  case h_7 => exact actsOn_putBlock h
  case h_8 =>
    unfold PoolRun.push at h
    split at h
    · cases h
    · cases h
      exact actsOn_setThread rfl List.eraseP_sublist
  case h_9 =>
    unfold PoolRun.recycle at h
    split at h
    · split at h <;> cases h
      exact actsOn_kept rfl rfl
    · cases h
      exact actsOn_kept rfl rfl
  case h_11 =>
    cases h
    unfold PoolRun.leave
    split <;> exact actsOn_kept rfl rfl
  case h_12 =>
    unfold PoolRun.reset at h
    split at h
    · split at h <;> cases h
      exact actsOn_kept rfl rfl
    · cases h
      exact actsOn_kept rfl rfl

lemma actsOn_poolStep {ev : PoolEvent} (h : poolStep opt r ev = .ok r') : ActsOn (eventThread ev) r r' := by
  unfold poolStep at h
  cases ev with
  | allocate t size =>
    dsimp only at h
    split at h
    · cases h
    · split at h
      · cases h
        exact actsOn_giveBlock t size 0
      · split at h
        · cases h
          exact actsOn_giveBlock t size 0
        · cases h
          exact actsOn_enter r.freeing _
  | deallocate t ptr =>
    dsimp only at h
    split at h
    · cases h
    · split at h
      · cases h
        exact actsOn_refl t r
      · cases h
        exact actsOn_enter _ _
  | exit t =>
    dsimp only at h
    split at h
    · cases h
    · split at h
      · cases h
        exact actsOn_refl t r
      · cases h
        exact actsOn_kept rfl rfl
  | adopt t fresh =>
    dsimp only at h
    split at h
    · cases h
      unfold PoolRun.adoptOrNewTlsCache
      split <;> exact actsOn_kept rfl rfl
    · cases h
  | advance t =>
    dsimp only at h
    split at h
    · cases h
    · exact actsOn_advance h

lemma GivesOne.fresh (h : GivesOne r r') (hnodup : (r'.live.map Prod.fst).Nodup) :
    ∀ b ∈ r'.live, b ∈ r.live ∨ b.1 ∉ r.live.map Prod.fst := by
  intro b hb
  rcases h with hsub | ⟨b', heq⟩
  · exact Or.inl (hsub.subset hb)
  · rw [heq] at hb hnodup
    rcases List.mem_cons.mp hb with hnew | hold
    · rw [hnew]
      exact Or.inr (List.nodup_cons.mp hnodup).1
    · exact Or.inl hold

end HandedOut

/-- In every state of every run, the blocks that callers hold do not overlap each other or a header
and have the smallest class with room, every block is in one place, and no call fails. -/
theorem pool_blocks_exclusive (opt : MemoryPoolInitOption) (hfetch : 1 ≤ opt.fetchChunkNum) (rs : PoolRegions)
    (r : PoolRun) (hruns : PoolRuns opt (PoolRun.init rs) r) :
    BlocksExclusive rs r ∧
      ∀ ev, poolAllowed r ev = true → ∃ r', poolStep opt r ev = .ok r' ∧
        ∀ b ∈ r'.live, b ∈ r.live ∨ b.1 ∉ r.live.map Prod.fst := by
  obtain ⟨v, h⟩ := PoolRuns.poolInv hruns
  refine ⟨h.blocksExclusive, fun ev hallowed => ?_⟩
  obtain ⟨r', v', hstep, h'⟩ := h.step (chunksApart rs) hfetch hallowed
  exact ⟨r', hstep, (actsOn_poolStep hstep).gives.fresh h'.nodup_live⟩

def twoChunks : PoolRegions := ⟨[⟨2097152, 4194304⟩], by decide, by simp⟩

/-- Thread `0` gets two blocks and thread `1` gives the first one back to the queue of the cache of
thread `0`, which becomes an orphan when its thread ends. Thread `1` gets a block of its own. -/
def sharedBlocks : List PoolEvent :=
  [.allocate 0 524288, .adopt 0 100, .advance 0, .advance 0, .advance 0, .advance 0,
   .allocate 0 400000, .advance 0,
   .deallocate 1 4194368, .adopt 1 200, .advance 1, .advance 1, .advance 1,
   .exit 0, .advance 0, .advance 0, .advance 0, .advance 0,
   .allocate 1 524288, .advance 1, .advance 1, .advance 1]

theorem pool_blocks_exclusive_sharedBlocks :
    ∃ r, PoolRuns ⟨64, 1, 1⟩ (PoolRun.init twoChunks) r ∧ r.live.map Prod.snd = [524288, 400000] ∧
      r.pool.orphanTlsCaches = [100] ∧ BlocksExclusive twoChunks r := by
  obtain ⟨r, hruns, _, hgoal⟩ := exists_runs_of_reaches (poolStep ⟨64, 1, 1⟩) (PoolRun.init twoChunks) sharedBlocks
    poolAllowed (fun r => decide (r.live.map Prod.snd = [524288, 400000] ∧ r.pool.orphanTlsCaches = [100]))
    (fun _ _ h => h) (by decide +kernel)
  have hgoal := of_decide_eq_true hgoal
  exact ⟨r, hruns, hgoal.1, hgoal.2, (pool_blocks_exclusive ⟨64, 1, 1⟩ le_rfl twoChunks r hruns).1⟩

/-- In every state of every run, no two threads have the same cache, and the orphans are nobody's. -/
theorem pool_caches_owned (opt : MemoryPoolInitOption) (rs : PoolRegions) (r : PoolRun)
    (hruns : PoolRuns opt (PoolRun.init rs) r) :
    (∀ t t' c, (r.threads t).cache = some c → (r.threads t').cache = some c → t = t') ∧
      (∀ t c, (r.threads t).cache = some c → c ∈ r.pool.tlsCaches ∧ c ∉ r.pool.orphanTlsCaches) ∧
      (∀ c ∈ r.pool.tlsCaches, ∀ t, (r.pool.caches c).threadId = some t → (r.threads t).cache = some c) ∧
      r.pool.orphanTlsCaches.Nodup ∧ ∀ c ∈ r.pool.orphanTlsCaches, c ∈ r.pool.tlsCaches := by
  obtain ⟨v, h⟩ := PoolRuns.poolInv hruns
  exact ⟨h.unique, h.holder, fun c hc t ht => h.ids c t hc ht, h.orphans_nodup, h.orphan⟩

theorem pool_caches_owned_sharedBlocks :
    ∃ r, PoolRuns ⟨64, 1, 1⟩ (PoolRun.init twoChunks) r ∧ r.pool.orphanTlsCaches = [100] ∧
      (r.threads 1).cache = some 200 ∧ ∀ t, (r.threads t).cache = some 200 → t = 1 := by
  obtain ⟨r, hruns, _, hgoal⟩ := exists_runs_of_reaches (poolStep ⟨64, 1, 1⟩) (PoolRun.init twoChunks) sharedBlocks
    poolAllowed (fun r => decide (r.pool.orphanTlsCaches = [100] ∧ (r.threads 1).cache = some 200))
    (fun _ _ h => h) (by decide +kernel)
  obtain ⟨horphans, hcache⟩ := of_decide_eq_true hgoal
  exact ⟨r, hruns, horphans, hcache, fun t ht => (pool_caches_owned _ twoChunks r hruns).1 t 1 200 ht hcache⟩

end Vesal.Proofs
