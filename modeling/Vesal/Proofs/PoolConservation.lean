import Vesal.Proofs.PoolExclusive

/-! # Every chunk of a pool is in one place -/

namespace Vesal

open Library

namespace ChunkPool

def chunksFrom (p : ChunkPool) (head : Nat) : List Nat := pathList p.memory.links.next p.totalChunkNum head

end ChunkPool

/-- The blocks of a block cache that callers hold or that wait in the queue of the cache, by the
headers of the blocks and of their chunks. -/
def PoolRun.takenBlocks (r : PoolRun) (c : Nat) (i : Fin kBlockNum) : List Nat :=
  (r.live.map Prod.fst ++ (r.pool.caches c).threadDeallocateTasks).filter fun q =>
    decide (r.pool.memory.cache (r.pool.memory.chunk (q - blockHeaderSize)) = (c, i))

end Vesal

namespace Vesal.Proofs

open Library

def chunksAt (rs : PoolRegions) (p : ChunkPool) : Place → List Nat
  | .central => p.chunksFrom p.chunks
  | .recyclable c i => p.chunksFrom (p.blockCache c i).recyclableChunks
  | .available c i => p.chunksFrom (p.blockCache c i).availableChunks
  | .full c i => rs.chunks.filter fun a =>
    decide (p.memory.cache a = (c, i) ∧ a ∉ p.chunksFrom p.chunks ∧
      a ∉ p.chunksFrom (p.blockCache c i).recyclableChunks ∧ a ∉ p.chunksFrom (p.blockCache c i).availableChunks)

def cacheChunks (rs : PoolRegions) (p : ChunkPool) (c : Nat) (i : Fin kBlockNum) : List Nat :=
  chunksAt rs p (.recyclable c i) ++ chunksAt rs p (.available c i) ++ chunksAt rs p (.full c i)

structure ChunkSorted (rs : PoolRegions) (r : PoolRun) (c : Nat) (i : Fin kBlockNum) (a : Nat) : Prop where
  total : r.pool.memory.totalBlockNum a = blockNum i
  available : r.pool.memory.availableBlockNum a = (r.pool.freeBlocks a).length
  blocks : Spread (r.pool.freeBlocks a) (liveOf r) (tasksOf r.pool c) i a
  recyclable_iff : a ∈ chunksAt rs r.pool (.recyclable c i) ↔ (r.pool.freeBlocks a).length = blockNum i
  available_iff : a ∈ chunksAt rs r.pool (.available c i) ↔
    0 < (r.pool.freeBlocks a).length ∧ (r.pool.freeBlocks a).length < blockNum i
  full_iff : a ∈ chunksAt rs r.pool (.full c i) ↔ r.pool.freeBlocks a = []

structure SizesRight (rs : PoolRegions) (r : PoolRun) (c : Nat) (i : Fin kBlockNum) : Prop where
  totalSize : (r.pool.blockCache c i).totalSize = (cacheChunks rs r.pool c i).length * kChunkSize
  recyclableSize : (r.pool.blockCache c i).recyclableSize = (chunksAt rs r.pool (.recyclable c i)).length * kChunkSize
  inUseSize : (r.pool.blockCache c i).inUseSize = (r.takenBlocks c i).length * kBlockSizes i

structure PoolConserved (rs : PoolRegions) (r : PoolRun) : Prop where
  placed : Placed rs.chunks (chunksAt rs r.pool)
  linked : ∀ place head, headOf r.pool place = some head → r.pool.memory.links.IsList head (chunksAt rs r.pool place)
  sorted : ∀ c i, ∀ a ∈ cacheChunks rs r.pool c i, c ∈ r.pool.tlsCaches ∧ ChunkSorted rs r c i a
  caches_nodup : r.pool.tlsCaches.Nodup
  chunkNum : r.pool.chunkNum = (chunksAt rs r.pool .central).length
  conserved : r.pool.chunkNum + (r.pool.tlsCaches.map fun c => (r.pool.caches c).totalChunkNum).sum =
    r.pool.totalChunkNum
  all : r.pool.totalChunkNum = rs.chunks.length
  sizes : ∀ c ∈ r.pool.tlsCaches, ∀ i, SizesRight rs r c i
  totalChunkNum : ∀ c ∈ r.pool.tlsCaches, (r.pool.caches c).totalChunkNum = ∑ i, (cacheChunks rs r.pool c i).length
  recyclableChunkNum : ∀ c ∈ r.pool.tlsCaches,
    (r.pool.caches c).recyclableChunkNum = ∑ i, (chunksAt rs r.pool (.recyclable c i)).length
  drained : r.live = [] → (∀ c ∈ r.pool.tlsCaches, (r.pool.caches c).threadDeallocateTasks = []) →
    ∀ a ∈ rs.chunks, a ∈ chunksAt rs r.pool .central ∨
      ∃ c ∈ r.pool.tlsCaches, ∃ i, a ∈ chunksAt rs r.pool (.recyclable c i)

variable {rs : PoolRegions} {r : PoolRun} {v : PoolView} {place : Place} {a c q : Nat} {i : Fin kBlockNum}

section Runs

variable {opt : MemoryPoolInitOption}

lemma runBooks_init (rs : PoolRegions) : RunBooks (PoolRun.init rs) (initView rs) := by
  have hpre := (preallocated_init rs).1
  have hcaches : (PoolRun.init rs).pool.caches = fun _ => TLSCache.new := hpre.caches
  refine ⟨?_, ?_, ?_, ?_⟩
  · intro c i
    rw [ChunkPool.blockCache, hcaches]
    exact classBooks_empty rfl rfl
  · intro c i a ha
    cases ha
  · intro c _
    rw [Exact, hcaches]
    simp [TLSCache.new, PoolView.recyclableNum, initView]
  · have hnone : (PoolRun.init rs).pool.tlsCaches = [] := hpre.tlsCaches
    rw [hnone]
    exact List.nodup_nil

/-- The books are right in every state of a run. -/
theorem PoolRuns.runBooks (hruns : PoolRuns opt (PoolRun.init rs) r) (hfetch : 0 < opt.fetchChunkNum) :
    ∃ v, PoolInv rs.chunks r v ∧ RunBooks r v := by
  refine Runs.invariant (P := fun r => ∃ v, PoolInv rs.chunks r v ∧ RunBooks r v) hruns
    ⟨_, poolInv_init rs, runBooks_init rs⟩ ?_
  rintro r ev r' ⟨v, h, hb⟩ hallowed hstep
  obtain ⟨r'', hstep', v', h', hb'⟩ := h.step_follows (chunksApart rs) hfetch hallowed
  obtain rfl : r' = r'' := Except.ok.inj (hstep.symm.trans hstep')
  exact ⟨v', h', hb' hb⟩

end Runs

section Places

variable {head : Nat}

section

variable (h : PoolInv rs.chunks r v)
include h

lemma PoolInv.chunksFrom_eq (hhead : headOf r.pool place = some head) :
    r.pool.chunksFrom head = v.lists place :=
  (h.stored.linked place head hhead).path.pathList_eq _ (h.stored.length_le place)

lemma PoolInv.chunksAt_eq (hhead : headOf r.pool place = some head) :
    chunksAt rs r.pool place = v.lists place := by
  rw [← h.chunksFrom_eq hhead]
  cases place with
  | central =>
    cases hhead
    rfl
  | recyclable c i =>
    cases hhead
    rfl
  | available c i =>
    cases hhead
    rfl
  | full c i => cases hhead

lemma PoolInv.mem_full_iff :
    a ∈ chunksAt rs r.pool (.full c i) ↔ a ∈ v.lists (.full c i) := by
  have hmem : a ∈ chunksAt rs r.pool (.full c i) ↔ a ∈ rs.chunks ∧ r.pool.memory.cache a = (c, i) ∧
      a ∉ v.lists .central ∧ a ∉ v.lists (.recyclable c i) ∧ a ∉ v.lists (.available c i) := by
    rw [chunksAt, List.mem_filter, decide_eq_true_eq, h.chunksFrom_eq (show headOf r.pool .central = some _ from rfl),
      h.chunksFrom_eq (show headOf r.pool (.recyclable c i) = some _ from rfl),
      h.chunksFrom_eq (show headOf r.pool (.available c i) = some _ from rfl)]
  rw [hmem]
  constructor
  · rintro ⟨ha, hcache, hcentral, hrecyclable, havailable⟩
    obtain ⟨place, hplace⟩ := (h.stored.placed.mem_iff a).mp ha
    have howner : ∀ c' i', place.owner = some (c', i') → (c', i') = (c, i) := by
      intro c' i' howner
      exact (h.built ⟨place, howner, hplace⟩).1.cache.symm.trans hcache
    cases place with
    | central => exact absurd hplace hcentral
    | recyclable c' i' =>
      cases howner c' i' rfl
      exact absurd hplace hrecyclable
    | available c' i' =>
      cases howner c' i' rfl
      exact absurd hplace havailable
    | full c' i' =>
      cases howner c' i' rfl
      exact hplace
  · intro ha
    have hne : ∀ place, place ≠ .full c i → a ∉ v.lists place := by
      intro place hne hplace
      exact hne (h.stored.placed.eq_of_mem place (.full c i) a hplace ha)
    exact ⟨h.stored.mem_chunks ha, (h.built ⟨.full c i, rfl, ha⟩).1.cache, hne _ (by simp), hne _ (by simp), hne _ (by simp)⟩

lemma PoolInv.mem_chunksAt : a ∈ chunksAt rs r.pool place ↔ a ∈ v.lists place := by
  cases place with
  | central => rw [h.chunksAt_eq rfl]
  | recyclable c i => rw [h.chunksAt_eq rfl]
  | available c i => rw [h.chunksAt_eq rfl]
  | full c i => exact h.mem_full_iff

lemma PoolInv.placed_chunksAt : Placed rs.chunks (chunksAt rs r.pool) where
  nodup place := by
    cases place with
    | central =>
      rw [h.chunksAt_eq rfl]
      exact h.stored.placed.nodup _
    | recyclable c i =>
      rw [h.chunksAt_eq rfl]
      exact h.stored.placed.nodup _
    | available c i =>
      rw [h.chunksAt_eq rfl]
      exact h.stored.placed.nodup _
    | full c i => exact (chunksApart rs).nodup.filter _
  eq_of_mem place place' a ha ha' :=
    h.stored.placed.eq_of_mem place place' a (h.mem_chunksAt.mp ha) (h.mem_chunksAt.mp ha')
  mem_iff a := by
    rw [h.stored.placed.mem_iff a]
    exact exists_congr fun place => h.mem_chunksAt.symm

lemma PoolInv.chunksAt_perm (place : Place) :
    (chunksAt rs r.pool place).Perm (v.lists place) := by
  apply (List.perm_ext_iff_of_nodup (h.placed_chunksAt.nodup place) (h.stored.placed.nodup place)).mpr
  intro a
  exact h.mem_chunksAt

lemma PoolInv.cacheChunks_perm (c : Nat) (i : Fin kBlockNum) :
    (cacheChunks rs r.pool c i).Perm (v.heldChunks c i) :=
  ((h.chunksAt_perm _).append (h.chunksAt_perm _)).append (h.chunksAt_perm _)

lemma PoolInv.mem_cacheChunks : a ∈ cacheChunks rs r.pool c i ↔ v.Held c i a := by
  rw [(h.cacheChunks_perm c i).mem_iff]
  exact mem_heldChunks

lemma PoolInv.chunkSorted (hparted : Parted v) (hheld : v.Held c i a) :
    ChunkSorted rs r c i a := by
  obtain ⟨hbuilt, hspread⟩ := h.built hheld
  have hfree := h.freeBlocks_eq hheld
  have htwo := two_le_blockNum i
  have hcases : (a ∈ v.lists (.recyclable c i) ∧ (v.free a).length = blockNum i) ∨
      (a ∈ v.lists (.available c i) ∧ 0 < (v.free a).length ∧ (v.free a).length < blockNum i) ∨
      (a ∈ v.lists (.full c i) ∧ (v.free a).length = 0) := by
    rcases List.mem_append.mp (mem_heldChunks.mpr hheld) with ha | ha
    · rcases List.mem_append.mp ha with ha | ha
      · exact Or.inl ⟨ha, (h.stored.chunkAt _ c i a rfl ha).allowed⟩
      · exact Or.inr (Or.inl ⟨ha, (h.stored.chunkAt _ c i a rfl ha).allowed, hparted c i a ha⟩)
    · exact Or.inr (Or.inr ⟨ha, (h.stored.chunkAt _ c i a rfl ha).allowed⟩)
  have hone : ∀ place place', place ≠ place' → a ∈ v.lists place → a ∉ v.lists place' := by
    intro place place' hne ha ha'
    exact hne (h.stored.placed.eq_of_mem place place' a ha ha')
  refine ⟨hbuilt.total, ?_, ?_, ?_, ?_, ?_⟩
  · rw [hfree]
    exact hbuilt.available
  · rw [hfree]
    exact hspread
  · rw [h.mem_chunksAt, hfree]
    rcases hcases with ⟨ha, hlen⟩ | ⟨ha, _, hlen⟩ | ⟨ha, hlen⟩
    · exact iff_of_true ha hlen
    · exact iff_of_false (hone _ _ (by simp) ha) (by omega)
    · exact iff_of_false (hone _ _ (by simp) ha) (by omega)
  · rw [h.mem_chunksAt, hfree]
    rcases hcases with ⟨ha, hlen⟩ | ⟨ha, hpos, hlen⟩ | ⟨ha, hlen⟩
    · exact iff_of_false (hone _ _ (by simp) ha) (by omega)
    · exact iff_of_true ha ⟨hpos, hlen⟩
    · exact iff_of_false (hone _ _ (by simp) ha) (by omega)
  · rw [h.mem_chunksAt, hfree, ← List.length_eq_zero_iff]
    rcases hcases with ⟨ha, hlen⟩ | ⟨ha, hpos, _⟩ | ⟨ha, hlen⟩
    · exact iff_of_false (hone _ _ (by simp) ha) (by omega)
    · exact iff_of_false (hone _ _ (by simp) ha) (by omega)
    · exact iff_of_true ha hlen

end

end Places

section Sizes

section

variable (h : PoolInv rs.chunks r v)
include h

lemma PoolInv.taken_of_mem (hq : q ∈ liveOf r ++ tasksOf r.pool c) :
    ∃ c' i' a, v.Held c' i' a ∧ q ∈ ptrsOf a i' ∧
      r.pool.memory.cache (r.pool.memory.chunk (q - blockHeaderSize)) = (c', i') := by
  have hheld : ∃ c' i' a, v.Held c' i' a ∧ q ∈ ptrsOf a i' := by
    rcases List.mem_append.mp hq with hq | hq
    · exact h.stored.out_held q hq
    · obtain ⟨i', a, hheld, hptr⟩ := h.stored.tasks_held c q hq
      exact ⟨c, i', a, hheld, hptr⟩
  obtain ⟨c', i', a, hheld, hptr⟩ := hheld
  obtain ⟨hchunk, hcache⟩ := h.stored.headers_of_held hheld hptr
  exact ⟨c', i', a, hheld, hptr, by rw [hchunk, hcache]⟩

lemma PoolInv.countP_inChunk (hq : q ∈ liveOf r ++ tasksOf r.pool c) (i : Fin kBlockNum) :
    ((v.heldChunks c i).countP fun a => inChunk a q) =
      if decide (r.pool.memory.cache (r.pool.memory.chunk (q - blockHeaderSize)) = (c, i)) then 1 else 0 := by
  obtain ⟨c', i', a, hheld, hptr, hcache⟩ := h.taken_of_mem hq
  have hin := inChunk_of_mem_ptrsOf hptr
  have hunique : ∀ a' ∈ v.heldChunks c i, inChunk a' q = true → a' = a := by
    intro a' ha' hin'
    obtain ⟨place', _, hplace'⟩ := mem_heldChunks.mp ha'
    obtain ⟨place, _, hplace⟩ := hheld
    exact h.stored.eq_of_inChunk (chunksApart rs) hplace' hplace hin' hin
  rw [hcache]
  by_cases hsame : (c', i') = (c, i)
  · cases hsame
    have hcount : (v.heldChunks c i).countP (fun a' => inChunk a' q) = (v.heldChunks c i).count a := by
      refine List.countP_congr fun a' ha' => ?_
      rw [beq_iff_eq]
      constructor
      · exact hunique a' ha'
      · rintro rfl
        exact hin
    rw [hcount, List.count_eq_one_of_mem (nodup_heldChunks h.stored.placed c i) (mem_heldChunks.mpr hheld)]
    simp
  · rw [List.countP_eq_zero.mpr]
    · simp [hsame]
    · intro a' ha' hin'
      obtain rfl := hunique a' ha' hin'
      exact h.stored.ne_of_owner_ne (mem_heldChunks.mp ha') hheld hsame rfl

lemma PoolInv.takenNum_eq (c : Nat) (i : Fin kBlockNum) :
    v.takenNum c i = (r.takenBlocks c i).length := by
  have hsum := sum_countP_eq (v.heldChunks c i) (liveOf r ++ tasksOf r.pool c) inChunk
    (fun q => decide (r.pool.memory.cache (r.pool.memory.chunk (q - blockHeaderSize)) = (c, i)))
    fun q hq => h.countP_inChunk hq i
  unfold PoolRun.takenBlocks
  rw [← List.countP_eq_length_filter]
  refine Eq.trans ?_ hsum
  unfold PoolView.takenNum
  congr 1
  refine List.map_congr_left fun a ha => ?_
  have hlen := (h.built (mem_heldChunks.mp ha)).2.length
  rw [List.countP_eq_length_filter]
  unfold takenOf at hlen
  omega

lemma PoolInv.sizesRight (hbooked : Booked r.pool v) (c : Nat) (i : Fin kBlockNum) :
    SizesRight rs r c i where
  totalSize := by
    rw [(h.cacheChunks_perm c i).length_eq]
    exact (hbooked c i).totalSize
  recyclableSize := by
    rw [(h.chunksAt_perm _).length_eq]
    exact (hbooked c i).recyclableSize
  inUseSize := by
    rw [← h.takenNum_eq]
    exact (hbooked c i).inUseSize

end

end Sizes

section Counters

lemma usedNum_add_recyclableNum (v : PoolView) (c : Nat) :
    v.recyclableNum c + v.usedNum c = ∑ i, (v.heldChunks c i).length := by
  unfold PoolView.recyclableNum PoolView.usedNum PoolView.heldChunks
  rw [← Finset.sum_add_distrib]
  refine Finset.sum_congr rfl fun i _ => ?_
  rw [List.length_append, List.length_append]
  omega

section

variable (h : PoolInv rs.chunks r v)
include h

lemma PoolInv.totalChunkNum_eq (hexact : Exact r.pool v c) :
    (r.pool.caches c).totalChunkNum = ∑ i, (v.heldChunks c i).length := by
  rw [(h.counted c).total, hexact, usedNum_add_recyclableNum]

lemma PoolInv.chunks_perm (hnodup : r.pool.tlsCaches.Nodup) :
    rs.chunks.Perm (v.lists .central ++
      r.pool.tlsCaches.flatMap fun c => (List.finRange kBlockNum).flatMap fun i => v.heldChunks c i) := by
  have howner : ∀ {c i c' i' a}, a ∈ v.heldChunks c i → a ∈ v.heldChunks c' i' → (c', i') = (c, i) := by
    intro c i c' i' a ha ha'
    by_contra hne
    exact h.stored.ne_of_owner_ne (mem_heldChunks.mp ha) (mem_heldChunks.mp ha') hne rfl
  apply (List.perm_ext_iff_of_nodup (chunksApart rs).nodup ?_).mpr
  · intro a
    rw [h.stored.placed.mem_iff a, List.mem_append, List.mem_flatMap]
    constructor
    · rintro ⟨place, ha⟩
      have hcache : ∀ c i, place.owner = some (c, i) →
          ∃ c ∈ r.pool.tlsCaches, a ∈ (List.finRange kBlockNum).flatMap fun i => v.heldChunks c i := by
        intro c i howner
        refine ⟨c, h.registered c i a ⟨place, howner, ha⟩, List.mem_flatMap.mpr ⟨i, List.mem_finRange i, ?_⟩⟩
        exact mem_heldChunks.mpr ⟨place, howner, ha⟩
      cases place with
      | central => exact Or.inl ha
      | recyclable c i => exact Or.inr (hcache c i rfl)
      | available c i => exact Or.inr (hcache c i rfl)
      | full c i => exact Or.inr (hcache c i rfl)
    · rintro (ha | ⟨c, _, ha⟩)
      · exact ⟨.central, ha⟩
      · obtain ⟨i, _, ha⟩ := List.mem_flatMap.mp ha
        obtain ⟨place, _, hplace⟩ := mem_heldChunks.mp ha
        exact ⟨place, hplace⟩
  · refine List.nodup_append'.mpr ⟨h.stored.placed.nodup _, List.nodup_flatMap.mpr ⟨?_, ?_⟩, ?_⟩
    · intro c _
      refine List.nodup_flatMap.mpr ⟨fun i _ => nodup_heldChunks h.stored.placed c i, ?_⟩
      refine (List.nodup_finRange kBlockNum).imp fun {i i'} hne => ?_
      intro a ha ha'
      exact hne (congrArg Prod.snd (howner ha ha')).symm
    · refine hnodup.imp fun {c c'} hne => ?_
      intro a ha ha'
      obtain ⟨i, _, ha⟩ := List.mem_flatMap.mp ha
      obtain ⟨i', _, ha'⟩ := List.mem_flatMap.mp ha'
      exact hne (congrArg Prod.fst (howner ha ha')).symm
    · intro a ha ha'
      obtain ⟨c, _, ha'⟩ := List.mem_flatMap.mp ha'
      obtain ⟨i, _, ha'⟩ := List.mem_flatMap.mp ha'
      obtain ⟨place, howner, hplace⟩ := mem_heldChunks.mp ha'
      rw [← h.stored.placed.eq_of_mem .central place a ha hplace] at howner
      cases howner

lemma PoolInv.chunkNum_add_sum (hnodup : r.pool.tlsCaches.Nodup) (hexact : ∀ c ∈ r.pool.tlsCaches, Exact r.pool v c) :
    r.pool.chunkNum + (r.pool.tlsCaches.map fun c => (r.pool.caches c).totalChunkNum).sum = r.pool.totalChunkNum := by
  have hlen := (h.chunks_perm hnodup).length_eq
  rw [List.length_append, List.length_flatMap] at hlen
  rw [h.stored.chunkNum, h.stored.totalChunkNum, hlen]
  congr 2
  refine List.map_congr_left fun c hc => ?_
  rw [h.totalChunkNum_eq (hexact c hc), List.length_flatMap, Fin.sum_univ_def]

lemma PoolInv.recyclable_of_drained (hparted : Parted v) (hlive : r.live = [])
    (htasks : ∀ c ∈ r.pool.tlsCaches, tasksOf r.pool c = []) (ha : a ∈ rs.chunks) :
    a ∈ chunksAt rs r.pool .central ∨ ∃ c ∈ r.pool.tlsCaches, ∃ i, a ∈ chunksAt rs r.pool (.recyclable c i) := by
  by_cases hcentral : a ∈ chunksAt rs r.pool .central
  · exact Or.inl hcentral
  · right
    obtain ⟨c, i, hheld⟩ : ∃ c i, v.Held c i a := by
      obtain ⟨place, hplace⟩ := (h.stored.placed.mem_iff a).mp ha
      cases place with
      | central => exact absurd (h.mem_chunksAt.mpr hplace) hcentral
      | recyclable c i => exact ⟨c, i, .recyclable c i, rfl, hplace⟩
      | available c i => exact ⟨c, i, .available c i, rfl, hplace⟩
      | full c i => exact ⟨c, i, .full c i, rfl, hplace⟩
    have hmem := h.registered c i a hheld
    have hsorted := h.chunkSorted hparted hheld
    refine ⟨c, hmem, i, hsorted.recyclable_iff.mpr ?_⟩
    have hlen := hsorted.blocks.length
    rw [takenOf, htasks c hmem, liveOf, hlive] at hlen
    exact hlen

end

end Counters

lemma PoolInv.poolConserved (h : PoolInv rs.chunks r v) (hb : RunBooks r v)
    (hsettled : ∀ t, Settled (r.threads t).stage) : PoolConserved rs r := by
  have hexact : ∀ c, Exact r.pool v c := fun c => hb.exact c fun t _ => hsettled t
  refine ⟨h.placed_chunksAt, ?_, ?_, hb.caches_nodup, ?_, ?_, h.stored.totalChunkNum, ?_, ?_, ?_, ?_⟩
  · intro place head hhead
    rw [h.chunksAt_eq hhead]
    exact h.stored.linked place head hhead
  · intro c i a ha
    have hheld := h.mem_cacheChunks.mp ha
    exact ⟨h.registered c i a hheld, h.chunkSorted hb.parted hheld⟩
  · rw [h.chunksAt_eq rfl]
    exact h.stored.chunkNum
  · exact h.chunkNum_add_sum hb.caches_nodup fun c _ => hexact c
  · exact fun c _ i => h.sizesRight hb.booked c i
  · intro c _
    rw [h.totalChunkNum_eq (hexact c)]
    exact Finset.sum_congr rfl fun i _ => (h.cacheChunks_perm c i).length_eq.symm
  · intro c _
    rw [hexact c]
    exact Finset.sum_congr rfl fun i _ => (h.chunksAt_perm _).length_eq.symm
  · exact fun hlive htasks a ha => h.recyclable_of_drained hb.parted hlive htasks ha

lemma settled_of_runs {opt : MemoryPoolInitOption} {t : Nat} {threads : List Nat}
    (hruns : Runs (poolStep opt) (fun r ev => poolAllowed r ev = true ∧ eventThread ev ∈ threads) (PoolRun.init rs) r)
    (ht : t ∉ threads) : Settled (r.threads t).stage := by
  have hinit : Settled ((PoolRun.init rs).threads t).stage := trivial
  refine Runs.invariant (P := fun r => Settled (r.threads t).stage) hruns hinit ?_
  intro r ev r' hsettled hallowed hstep
  have hne : t ≠ eventThread ev := by
    rintro rfl
    exact ht hallowed.2
  rw [(actsOn_poolStep hstep).others t hne]
  exact hsettled

/-- In every state of a run in which no thread is in the loop of `Recycle` or `Reset`, every chunk is
in one place or has all its blocks taken, the lists are doubly linked, and all counters and sizes
are those of the lists. -/
theorem pool_chunks_conserved (opt : MemoryPoolInitOption) (hfetch : 1 ≤ opt.fetchChunkNum) (rs : PoolRegions)
    (r : PoolRun) (hruns : PoolRuns opt (PoolRun.init rs) r) (hsettled : ∀ t, Settled (r.threads t).stage) :
    PoolConserved rs r := by
  obtain ⟨v, h, hb⟩ := PoolRuns.runBooks hruns hfetch
  exact h.poolConserved hb hsettled

theorem pool_chunks_conserved_sharedBlocks :
    ∃ r, PoolRuns ⟨64, 1, 1⟩ (PoolRun.init twoChunks) r ∧ r.live.map Prod.snd = [524288, 400000] ∧
      r.pool.orphanTlsCaches = [100] ∧ PoolConserved twoChunks r := by
  have hcheck : ∀ r ev, (poolAllowed r ev && decide (eventThread ev ∈ [0, 1])) = true →
      poolAllowed r ev = true ∧ eventThread ev ∈ [0, 1] := fun _ _ h => by simpa using h
  obtain ⟨r, hruns, _, hgoal⟩ := exists_runs_of_reaches (poolStep ⟨64, 1, 1⟩) (PoolRun.init twoChunks) sharedBlocks
    (fun r ev => poolAllowed r ev && decide (eventThread ev ∈ [0, 1]))
    (fun r => decide (r.live.map Prod.snd = [524288, 400000] ∧ r.pool.orphanTlsCaches = [100] ∧
      (r.threads 0).stage = .idle ∧ (r.threads 1).stage = .idle)) hcheck (by decide +kernel)
  obtain ⟨hlive, horphans, hzero, hone⟩ := of_decide_eq_true hgoal
  have hpool : PoolRuns ⟨64, 1, 1⟩ (PoolRun.init twoChunks) r := hruns.mono fun _ _ hallowed => hallowed.1
  refine ⟨r, hpool, hlive, horphans, pool_chunks_conserved ⟨64, 1, 1⟩ le_rfl twoChunks r hpool fun t => ?_⟩
  by_cases ht : t ∈ [0, 1]
  · simp only [List.mem_cons, List.not_mem_nil, or_false] at ht
    rcases ht with rfl | rfl
    · rw [hzero]
      trivial
    · rw [hone]
      trivial
  · exact settled_of_runs hruns ht

end Vesal.Proofs
