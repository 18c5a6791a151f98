import Vesal.Library.Placement
import Vesal.Proofs.PoolLayout

/-! # What the memory of a pool stands for -/

namespace Vesal.Proofs

open Library List Finset ChunkPool

/-- Where a chunk can be. A chunk all of whose blocks are taken is on no list of its cache. -/
inductive Place where
  | central
  | recyclable (c : Nat) (i : Fin kBlockNum)
  | available (c : Nat) (i : Fin kBlockNum)
  | full (c : Nat) (i : Fin kBlockNum)
deriving DecidableEq

def Place.owner : Place → Option (Nat × Fin kBlockNum)
  | .central => none
  | .recyclable c i => some (c, i)
  | .available c i => some (c, i)
  | .full c i => some (c, i)

def headOf (p : ChunkPool) : Place → Option Nat
  | .central => some p.chunks
  | .recyclable c i => some (p.blockCache c i).recyclableChunks
  | .available c i => some (p.blockCache c i).availableChunks
  | .full _ _ => none

def Place.allows (freeNum total : Nat) : Place → Prop
  | .central => True
  | .recyclable _ _ => freeNum = total
  | .available _ _ => 0 < freeNum
  | .full _ _ => freeNum = 0

structure PoolView where
  lists : Place → List Nat
  free : Nat → List Nat

namespace PoolView

def Held (v : PoolView) (c : Nat) (i : Fin kBlockNum) (a : Nat) : Prop :=
  ∃ place, Place.owner place = some (c, i) ∧ a ∈ v.lists place

def usedNum (v : PoolView) (c : Nat) : Nat :=
  ∑ i, ((v.lists (.available c i)).length + (v.lists (.full c i)).length)

def recyclableNum (v : PoolView) (c : Nat) : Nat := ∑ i, (v.lists (.recyclable c i)).length

def move (v : PoolView) (source target : Place) (moved rest : List Nat) : PoolView :=
  { v with lists := moveTo v.lists source target moved rest }

def setFree (v : PoolView) (a : Nat) (blocks : List Nat) : PoolView :=
  { v with free := Function.update v.free a blocks }

end PoolView

structure ChunkBuilt (m : PoolMemory) (free : List Nat) (c : Nat) (i : Fin kBlockNum) (a : Nat) : Prop where
  cache : m.cache a = (c, i)
  total : m.totalBlockNum a = blockNum i
  available : m.availableBlockNum a = free.length
  path : LinkPath m.nextBlock (m.head a) free 0
  chunk : ∀ b ∈ blocksOf a i, m.chunk b = a

/-- The pointers to blocks of a chunk that are not free: `out` are the ones that left the pool,
`tasks` the queue of the cache. -/
def takenOf (a : Nat) (out tasks : List Nat) : List Nat := (out ++ tasks).filter (inChunk a)

def Spread (free out tasks : List Nat) (i : Fin kBlockNum) (a : Nat) : Prop :=
  (free.map (· + blockHeaderSize) ++ takenOf a out tasks).Perm (ptrsOf a i)

def tasksOf (p : ChunkPool) (c : Nat) : List Nat := (p.caches c).threadDeallocateTasks

structure ChunkAt (p : ChunkPool) (out free : List Nat) (place : Place) (c : Nat) (i : Fin kBlockNum)
    (a : Nat) : Prop where
  built : ChunkBuilt p.memory free c i a
  allowed : place.allows free.length (blockNum i)
  spread : Spread free out (tasksOf p c) i a

structure Stored (chunks : List Nat) (p : ChunkPool) (out : List Nat) (v : PoolView) : Prop where
  placed : Placed chunks v.lists
  linked : ∀ place head, headOf p place = some head → p.memory.links.IsList head (v.lists place)
  chunkNum : p.chunkNum = (v.lists .central).length
  totalChunkNum : p.totalChunkNum = chunks.length
  chunkAt : ∀ place c i a, place.owner = some (c, i) → a ∈ v.lists place → ChunkAt p out (v.free a) place c i a
  out_held : ∀ q ∈ out, ∃ c i a, v.Held c i a ∧ q ∈ ptrsOf a i
  tasks_held : ∀ c, ∀ q ∈ tasksOf p c, ∃ i a, v.Held c i a ∧ q ∈ ptrsOf a i

structure Counted (p : ChunkPool) (v : PoolView) (c : Nat) : Prop where
  total : (p.caches c).totalChunkNum = (p.caches c).recyclableChunkNum + v.usedNum c
  recyclable_le : v.recyclableNum c ≤ (p.caches c).recyclableChunkNum

variable {chunks out out' tasks tasks' free moved rest : List Nat} {p p' : ChunkPool} {v v' : PoolView}
  {m m' : PoolMemory} {source target place : Place} {a b c n q : Nat} {i : Fin kBlockNum}

section Counting

def Place.usedShare (c n : Nat) : Place → Nat
  | .available c' _ => if c = c' then n else 0
  | .full c' _ => if c = c' then n else 0
  | _ => 0

def Place.recyclableShare (c n : Nat) : Place → Nat
  | .recyclable c' _ => if c = c' then n else 0
  | _ => 0

lemma sum_usedShare (place : Place) (c n : Nat) :
    ∑ i, ((if Place.available c i = place then n else 0) + if Place.full c i = place then n else 0) =
      place.usedShare c n := by
  cases place with
  | central => simp [Place.usedShare]
  | recyclable c' i' => simp [Place.usedShare]
  | available c' i' => by_cases hc : c = c' <;> simp [Place.usedShare, hc]
  | full c' i' => by_cases hc : c = c' <;> simp [Place.usedShare, hc]

lemma sum_recyclableShare (place : Place) (c n : Nat) :
    ∑ i, (if Place.recyclable c i = place then n else 0) = place.recyclableShare c n := by
  cases place with
  | central => simp [Place.recyclableShare]
  | recyclable c' i' => by_cases hc : c = c' <;> simp [Place.recyclableShare, hc]
  | available c' i' => simp [Place.recyclableShare]
  | full c' i' => simp [Place.recyclableShare]

lemma usedNum_move (source target : Place) (hne : source ≠ target)
    (hperm : (v.lists source).Perm (moved ++ rest)) (c : Nat) :
    (v.move source target moved rest).usedNum c + source.usedShare c moved.length =
      v.usedNum c + target.usedShare c moved.length := by
  rw [← sum_usedShare, ← sum_usedShare]
  unfold PoolView.usedNum PoolView.move
  rw [← sum_add_distrib, ← sum_add_distrib]
  refine sum_congr rfl fun i _ => ?_
  have havailable := length_moveTo hne hperm (.available c i)
  have hfull := length_moveTo hne hperm (.full c i)
  dsimp only
  omega

lemma recyclableNum_move (source target : Place) (hne : source ≠ target)
    (hperm : (v.lists source).Perm (moved ++ rest)) (c : Nat) :
    (v.move source target moved rest).recyclableNum c + source.recyclableShare c moved.length =
      v.recyclableNum c + target.recyclableShare c moved.length := by
  rw [← sum_recyclableShare, ← sum_recyclableShare]
  unfold PoolView.recyclableNum PoolView.move
  rw [← sum_add_distrib, ← sum_add_distrib]
  exact sum_congr rfl fun i _ => length_moveTo hne hperm (.recyclable c i)

end Counting

section Chunks

structure SameChunk (m m' : PoolMemory) (a : Nat) : Prop where
  cache : m'.cache a = m.cache a
  total : m'.totalBlockNum a = m.totalBlockNum a
  available : m'.availableBlockNum a = m.availableBlockNum a
  head : m'.head a = m.head a
  chunk : ∀ b, inChunk a b = true → m'.chunk b = m.chunk b
  nextBlock : ∀ b, inChunk a b = true → m'.nextBlock b = m.nextBlock b

lemma SameChunk.refl (m : PoolMemory) (a : Nat) : SameChunk m m a :=
  ⟨rfl, rfl, rfl, rfl, fun _ _ => rfl, fun _ _ => rfl⟩

lemma SameChunk.trans {m'' : PoolMemory} (h : SameChunk m m' a) (h' : SameChunk m' m'' a) :
    SameChunk m m'' a where
  cache := h'.cache.trans h.cache
  total := h'.total.trans h.total
  available := h'.available.trans h.available
  head := h'.head.trans h.head
  chunk b hb := (h'.chunk b hb).trans (h.chunk b hb)
  nextBlock b hb := (h'.nextBlock b hb).trans (h.nextBlock b hb)

section

variable (h : Spread free out tasks i a)
include h

lemma Spread.mem_blocksOf (hb : b ∈ free) : b ∈ blocksOf a i := by
  have hptr : b + blockHeaderSize ∈ ptrsOf a i :=
    h.mem_iff.mp (mem_append_left _ (mem_map_of_mem hb))
  obtain ⟨b', hb', heq⟩ := mem_map.mp hptr
  rwa [← Nat.add_right_cancel heq]

lemma Spread.length :
    free.length + (takenOf a out tasks).length = blockNum i := by
  have hlen := Perm.length_eq h
  rwa [length_append, length_map, length_ptrsOf] at hlen

lemma Spread.congr (htaken : (takenOf a out' tasks').Perm (takenOf a out tasks)) : Spread free out' tasks' i a :=
  (htaken.append_left _).trans h

lemma Spread.notMem_free (hq : q ∈ out ++ tasks) (hin : inChunk a q = true) :
    q - blockHeaderSize ∈ free → q < blockHeaderSize := by
  intro hfree
  by_contra hle
  have hnodup := h.nodup_iff.mpr (nodup_ptrsOf a i)
  refine (nodup_append'.mp hnodup).2.2 (mem_map_of_mem hfree) ?_
  rw [Nat.sub_add_cancel (Nat.le_of_not_lt hle)]
  exact mem_filter.mpr ⟨hq, hin⟩

end

lemma ChunkBuilt.congr (h : ChunkBuilt m free c i a) (hsame : SameChunk m m' a)
    (hfree : ∀ b ∈ free, b ∈ blocksOf a i) : ChunkBuilt m' free c i a where
  cache := hsame.cache.trans h.cache
  total := hsame.total.trans h.total
  available := hsame.available.trans h.available
  path := by
    rw [hsame.head]
    exact h.path.congr fun b hb => hsame.nextBlock b (inChunk_of_mem_blocksOf (hfree b hb))
  chunk b hb := (hsame.chunk b (inChunk_of_mem_blocksOf hb)).trans (h.chunk b hb)

lemma ChunkAt.frame (h : ChunkAt p out free place c i a) (hsame : SameChunk p.memory p'.memory a)
    (htaken : (takenOf a out' (tasksOf p' c)).Perm (takenOf a out (tasksOf p c))) :
    ChunkAt p' out' free place c i a where
  built := h.built.congr hsame fun _ hb => h.spread.mem_blocksOf hb
  allowed := h.allowed
  spread := h.spread.congr htaken

lemma takenOf_cons_of_inChunk (h : inChunk a q = true) : takenOf a (q :: out) tasks = q :: takenOf a out tasks := by
  simp [takenOf, h]

lemma takenOf_cons_of_not_inChunk (h : inChunk a q = false) : takenOf a (q :: out) tasks = takenOf a out tasks := by
  simp [takenOf, h]

lemma takenOf_perm (h : out'.Perm out) (a : Nat) (tasks : List Nat) :
    (takenOf a out' tasks).Perm (takenOf a out tasks) := (h.append_right tasks).filter _

end Chunks

lemma held_move (hne : source ≠ target) (hplaced : Placed chunks v.lists)
    (hperm : (v.lists source).Perm (moved ++ rest)) (h : v.Held c i a)
    (hmoved : a ∈ moved → target.owner = some (c, i)) : (v.move source target moved rest).Held c i a := by
  obtain ⟨place, howner, ha⟩ := h
  by_cases hmem : a ∈ moved
  · exact ⟨target, hmoved hmem, (mem_moveTo_iff hperm hne hplaced a).mpr (Or.inl ⟨hmem, rfl⟩)⟩
  · exact ⟨place, howner, (mem_moveTo_iff hperm hne hplaced a).mpr (Or.inr ⟨hmem, ha⟩)⟩

section Fields

variable {b' : TLSBlockCache} {total recyclable c' : Nat} {cache : TLSCache}

lemma caches_setCache_self : (p.setCache c cache).caches c = cache := by simp [setCache]

lemma caches_setCache_of_ne (h : c' ≠ c) : (p.setCache c cache).caches c' = p.caches c' := by
  simp [setCache, h]

lemma proj_setCache {β : Type} (f : TLSCache → β) (c' : Nat) (h : f cache = f (p.caches c)) :
    f ((p.setCache c cache).caches c') = f (p.caches c') := by
  by_cases hc : c' = c
  · rw [hc, caches_setCache_self, h]
  · rw [caches_setCache_of_ne hc]

lemma blockCache_setBlockCache_self : (p.setBlockCache c i b').blockCache c i = b' := by
  simp [blockCache, setBlockCache, caches_setCache_self, TLSCache.setBlockCache]

lemma blockCache_setNums : (p.setNums c total recyclable).blockCache c i = p.blockCache c i := by
  simp [blockCache, setNums, caches_setCache_self]

lemma blockCache_setNums_any (p : ChunkPool) (c total recyclable c' : Nat) (i : Fin kBlockNum) :
    (p.setNums c total recyclable).blockCache c' i = p.blockCache c' i :=
  proj_setCache (·.blockCaches i) c' rfl

/-- What an operation on a block cache leaves alone: the other block caches, the queues, the
threads, and which caches there are. -/
structure Alters (c : Nat) (i : Fin kBlockNum) (p p' : ChunkPool) : Prop where
  caches : ∀ c', c' ≠ c → p'.caches c' = p.caches c'
  blockCache : ∀ j, j ≠ i → p'.blockCache c j = p.blockCache c j
  tasks : tasksOf p' c = tasksOf p c
  threadId : (p'.caches c).threadId = (p.caches c).threadId
  tlsCaches : p'.tlsCaches = p.tlsCaches
  orphans : p'.orphanTlsCaches = p.orphanTlsCaches
  totalChunkNum : p'.totalChunkNum = p.totalChunkNum

lemma Alters.trans {p'' : ChunkPool} (h : Alters c i p p') (h' : Alters c i p' p'') : Alters c i p p'' where
  caches c' hc := (h'.caches c' hc).trans (h.caches c' hc)
  blockCache j hj := (h'.blockCache j hj).trans (h.blockCache j hj)
  tasks := h'.tasks.trans h.tasks
  threadId := h'.threadId.trans h.threadId
  tlsCaches := h'.tlsCaches.trans h.tlsCaches
  orphans := h'.orphans.trans h.orphans
  totalChunkNum := h'.totalChunkNum.trans h.totalChunkNum

lemma alters_setBlockCache (p : ChunkPool) (c : Nat) (i : Fin kBlockNum) (b' : TLSBlockCache) :
    Alters c i p (p.setBlockCache c i b') := by
  have hcache : (p.setBlockCache c i b').caches c = (p.caches c).setBlockCache i b' := caches_setCache_self
  refine ⟨fun c' hc => caches_setCache_of_ne hc, ?_, ?_, ?_, rfl, rfl, rfl⟩
  · intro j hj
    rw [blockCache, hcache]
    simp [TLSCache.setBlockCache, hj, blockCache]
  · rw [tasksOf, hcache]
    rfl
  · rw [hcache]
    rfl

lemma alters_setNums (p : ChunkPool) (c total recyclable : Nat) (i : Fin kBlockNum) :
    Alters c i p (p.setNums c total recyclable) := by
  refine ⟨fun c' hc => caches_setCache_of_ne hc, fun j _ => blockCache_setNums, ?_, ?_, rfl, rfl, rfl⟩
  · rw [tasksOf, setNums, caches_setCache_self]
    rfl
  · rw [setNums, caches_setCache_self]

lemma alters_write (p : ChunkPool) (memory : PoolMemory) (chunks chunkNum c : Nat) (i : Fin kBlockNum)
    (b' : TLSBlockCache) :
    Alters c i p ({ p with memory := memory, chunks := chunks, chunkNum := chunkNum }.setBlockCache c i b') := by
  have hcentral : Alters c i p { p with memory := memory, chunks := chunks, chunkNum := chunkNum } :=
    ⟨fun _ _ => rfl, fun _ _ => rfl, rfl, rfl, rfl, rfl, rfl⟩
  exact hcentral.trans (alters_setBlockCache _ c i b')

lemma Alters.tasksOf_eq (h : Alters c i p p') : tasksOf p' = tasksOf p := by
  funext c'
  by_cases hc : c' = c
  · rw [hc, h.tasks]
  · rw [tasksOf, h.caches c' hc, tasksOf]

lemma Alters.blockCache_of_ne (h : Alters c i p p') {j : Fin kBlockNum} (hne : (c', j) ≠ (c, i)) :
    p'.blockCache c' j = p.blockCache c' j := by
  by_cases hc : c' = c
  · subst hc
    exact h.blockCache j fun hj => hne (by rw [hj])
  · rw [ChunkPool.blockCache, h.caches c' hc, ChunkPool.blockCache]

lemma Alters.headOf_eq (h : Alters c i p p') (hcentral : place = .central → p'.chunks = p.chunks)
    (hr : place = .recyclable c i → (p'.blockCache c i).recyclableChunks = (p.blockCache c i).recyclableChunks)
    (ha : place = .available c i → (p'.blockCache c i).availableChunks = (p.blockCache c i).availableChunks) :
    headOf p' place = headOf p place := by
  cases place with
  | central => rw [headOf, headOf, hcentral rfl]
  | full c' j => rfl
  | recyclable c' j =>
    by_cases hcj : (c', j) = (c, i)
    · obtain ⟨rfl, rfl⟩ := Prod.mk.inj hcj
      rw [headOf, headOf, hr rfl]
    · rw [headOf, headOf, h.blockCache_of_ne hcj]
  | available c' j =>
    by_cases hcj : (c', j) = (c, i)
    · obtain ⟨rfl, rfl⟩ := Prod.mk.inj hcj
      rw [headOf, headOf, ha rfl]
    · rw [headOf, headOf, h.blockCache_of_ne hcj]

lemma headOf_setCache (h : ∀ i, cache.blockCaches i = p.blockCache c i) : headOf (p.setCache c cache) = headOf p := by
  have hblock : ∀ c' j, (p.setCache c cache).blockCache c' j = p.blockCache c' j :=
    fun c' j => proj_setCache (·.blockCaches j) c' (h j)
  funext place
  cases place with
  | central => rfl
  | full c' j => rfl
  | recyclable c' j => rw [headOf, headOf, hblock]
  | available c' j => rw [headOf, headOf, hblock]

lemma tasksOf_setCache_of_ne (h : c' ≠ c) : tasksOf (p.setCache c cache) c' = tasksOf p c' := by
  rw [tasksOf, caches_setCache_of_ne h, tasksOf]

lemma tasksOf_setCache (h : cache.threadDeallocateTasks = tasksOf p c) : tasksOf (p.setCache c cache) = tasksOf p := by
  funext c'
  exact proj_setCache TLSCache.threadDeallocateTasks c' h

end Fields

namespace Stored

section

variable (h : Stored chunks p out v)
include h

lemma mem_chunks (ha : a ∈ v.lists place) : a ∈ chunks :=
  (h.placed.mem_iff a).mpr ⟨place, ha⟩

lemma mem_chunks_of_held (hheld : v.Held c i a) : a ∈ chunks := by
  obtain ⟨place, _, ha⟩ := hheld
  exact h.mem_chunks ha

lemma length_le (place : Place) : (v.lists place).length ≤ p.totalChunkNum := by
  rw [h.totalChunkNum]
  exact (h.placed.nodup place).subperm (fun a ha => h.mem_chunks ha) |>.length_le

lemma linked_move (hne : source ≠ target)
    (hheads : ∀ place, place ≠ source → place ≠ target → headOf p' place = headOf p place)
    (hsame : p.memory.links.SameOff p'.memory.links (v.lists source ++ v.lists target))
    (hsource : ∀ head, headOf p' source = some head → p'.memory.links.IsList head rest)
    (htarget : ∀ head, headOf p' target = some head → p'.memory.links.IsList head (moved ++ v.lists target))
    (place : Place) (head : Nat) (hhead : headOf p' place = some head) :
    p'.memory.links.IsList head (moveTo v.lists source target moved rest place) := by
  by_cases ht : place = target
  · subst ht
    rw [moveTo_to]
    exact htarget head hhead
  · by_cases hs : place = source
    · subst hs
      rw [moveTo_from hne]
      exact hsource head hhead
    · rw [moveTo_of_ne hs ht]
      rw [hheads place hs ht] at hhead
      refine (h.linked place head hhead).frame hsame fun x hx hmem => ?_
      rcases mem_append.mp hmem with hmem | hmem
      · exact hs (h.placed.eq_of_mem place source x hx hmem)
      · exact ht (h.placed.eq_of_mem place target x hx hmem)

lemma congr (hmemory : p'.memory = p.memory) (hheads : headOf p' = headOf p) (hnum : p'.chunkNum = p.chunkNum)
    (htotal : p'.totalChunkNum = p.totalChunkNum) (htasks : tasksOf p' = tasksOf p) : Stored chunks p' out v where
  placed := h.placed
  linked place head hhead := by
    rw [hmemory]
    exact h.linked place head (hheads ▸ hhead)
  chunkNum := hnum.trans h.chunkNum
  totalChunkNum := htotal.trans h.totalChunkNum
  chunkAt place c i a howner ha := by
    refine (h.chunkAt place c i a howner ha).frame (hmemory ▸ SameChunk.refl _ _) ?_
    rw [htasks]
  out_held := h.out_held
  tasks_held := by
    rw [htasks]
    exact h.tasks_held

lemma perm (hperm : out'.Perm out) : Stored chunks p out' v where
  placed := h.placed
  linked := h.linked
  chunkNum := h.chunkNum
  totalChunkNum := h.totalChunkNum
  chunkAt place c i a howner ha :=
    (h.chunkAt place c i a howner ha).frame (SameChunk.refl _ _) (takenOf_perm hperm a _)
  out_held q hq := h.out_held q (hperm.mem_iff.mp hq)
  tasks_held := h.tasks_held

lemma move {free' : Nat → List Nat} (hne : source ≠ target) (hperm : (v.lists source).Perm (moved ++ rest))
    (hlinked : ∀ place head, headOf p' place = some head →
      p'.memory.links.IsList head (moveTo v.lists source target moved rest place))
    (hnum : p'.chunkNum = (moveTo v.lists source target moved rest .central).length)
    (htotal : p'.totalChunkNum = p.totalChunkNum) (htasks : tasksOf p' = tasksOf p)
    (hothers : ∀ place c i a, place.owner = some (c, i) → a ∈ v.lists place → a ∉ moved →
      ChunkAt p' out' (free' a) place c i a)
    (hmoved : ∀ c i a, target.owner = some (c, i) → a ∈ moved → ChunkAt p' out' (free' a) target c i a)
    (hheld : ∀ c i a q, v.Held c i a → a ∈ moved → q ∈ ptrsOf a i → q ∈ out' ++ tasksOf p c →
      target.owner = some (c, i)) (hout : ∀ q ∈ out', ∃ c i a, v.Held c i a ∧ q ∈ ptrsOf a i) :
    Stored chunks p' out' ⟨moveTo v.lists source target moved rest, free'⟩ where
  placed := h.placed.moveTo hne hperm
  linked := hlinked
  chunkNum := hnum
  totalChunkNum := htotal.trans h.totalChunkNum
  chunkAt place c i a howner ha := by
    rcases (mem_moveTo_iff hperm hne h.placed a).mp ha with ⟨hmem, rfl⟩ | ⟨hmem, ha⟩
    · exact hmoved c i a howner hmem
    · exact hothers place c i a howner ha hmem
  out_held q hq := by
    obtain ⟨c, i, a, hv, hmem⟩ := hout q hq
    refine ⟨c, i, a, held_move hne h.placed hperm hv fun hmoved => ?_, hmem⟩
    exact hheld c i a q hv hmoved hmem (mem_append_left _ hq)
  tasks_held c q hq := by
    rw [htasks] at hq
    obtain ⟨i, a, hv, hmem⟩ := h.tasks_held c q hq
    refine ⟨i, a, held_move hne h.placed hperm hv fun hmoved => ?_, hmem⟩
    exact hheld c i a q hv hmoved hmem (mem_append_right _ hq)

end

end Stored

end Vesal.Proofs
