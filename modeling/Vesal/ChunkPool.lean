import Vesal.Library.EventRuns
import Vesal.Library.LinkedLists

/-!
# The chunk pool and its thread caches

`ChunkPool`, `TLSCache` and `TLSCacheGuard` of `chunk_pool.h` and `chunk_pool.cc`, built without
the address sanitizer. Chunks, blocks and caches are named by their address and `0` is the null
pointer. Every field of a header is a function of the address of the header.

A thread runs a call in steps. A step ends where other threads can see it: at a section under
the mutex of the pool, at a push to a queue or a pop from it, and where the id of a thread is
read or written. What a thread does to its own cache in between belongs to the step before.
-/

namespace Vesal

open Library Function

abbrev kBlockNum : Nat := 10

def kBlockSizes : Fin kBlockNum → Nat :=
  ![1 * 1024, 2 * 1024, 4 * 1024, 8 * 1024, 16 * 1024, 32 * 1024, 64 * 1024, 128 * 1024, 256 * 1024,
    512 * 1024]

def kMemoryPoolMaxAllocate : Nat := kBlockSizes (Fin.last 9)

def kChunkSize : Nat := 2 * 1024 * 1024

def chunkHeaderSize : Nat := 48

def blockHeaderSize : Nat := 16

def builtinClz (x : Nat) : Nat := 31 - x.log2

def builtinPopcount (x : Nat) : Nat := (List.range 32).countP fun i => x.testBit i

def getBlockIndex (size : Nat) : Nat :=
  let x := (size + 1023) >>> 10
  let x := if x &&& (x - 1) ≠ 0 then 0x80000000 >>> (builtinClz x - 1) else x
  builtinPopcount (x - 1)

structure MemoryPoolInitOption where
  cacheRecycleThresholdSizeMb : Nat
  recycleChunkNum : Nat
  fetchChunkNum : Nat

/-- The headers in the memory of the pool. A `cache` of a chunk is a cache and the index of one
of its block caches; `chunk` and `nextBlock` are the fields of a `BlockHeader`. -/
structure PoolMemory where
  links : Links
  head : Nat → Nat
  cache : Nat → Nat × Fin kBlockNum
  availableBlockNum : Nat → Nat
  totalBlockNum : Nat → Nat
  chunk : Nat → Nat
  nextBlock : Nat → Nat

structure TLSBlockCache where
  recyclableChunks : Nat
  availableChunks : Nat
  blockSize : Nat
  totalSize : Nat
  recyclableSize : Nat
  inUseSize : Nat

structure TLSCache where
  blockCaches : Fin kBlockNum → TLSBlockCache
  totalChunkNum : Nat
  recyclableChunkNum : Nat
  threadDeallocateTasks : List Nat
  threadId : Option Nat

def TLSCache.new : TLSCache where
  blockCaches i := ⟨0, 0, kBlockSizes i, 0, 0, 0⟩
  totalChunkNum := 0
  recyclableChunkNum := 0
  threadDeallocateTasks := []
  threadId := none

def TLSCache.recyclable (cache : TLSCache) : Bool := cache.totalChunkNum == cache.recyclableChunkNum

def TLSCache.setBlockCache (cache : TLSCache) (i : Fin kBlockNum) (b : TLSBlockCache) : TLSCache :=
  { cache with blockCaches := update cache.blockCaches i b }

/-- The pool with the caches that were made for it; `tlsCaches` are the ones that exist. -/
structure ChunkPool where
  memory : PoolMemory
  chunks : Nat
  chunkNum : Nat
  totalChunkNum : Nat
  tlsCaches : List Nat
  orphanTlsCaches : List Nat
  caches : Nat → TLSCache

inductive PoolFault where
  | nullPointer
  | danglingCache
  | outOfArray
  | endlessLoop
  | notReady
deriving DecidableEq, Repr

def bufAddr (chunk : Nat) : Nat := chunk + chunkHeaderSize

namespace PoolMemory

variable (m : PoolMemory)

def setLinks (links : Links) : PoolMemory := { m with links := links }

def popBlock (chunk : Nat) : PoolMemory :=
  { m with
    head := update m.head chunk (m.nextBlock (m.head chunk))
    availableBlockNum := update m.availableBlockNum chunk (m.availableBlockNum chunk - 1) }

def pushBlock (chunk block : Nat) : PoolMemory :=
  { m with
    nextBlock := update m.nextBlock block (m.head chunk)
    head := update m.head chunk block
    availableBlockNum := update m.availableBlockNum chunk (m.availableBlockNum chunk + 1) }

/-- The inner loop of `BuildBlocks` at the block `p`, with `n` passes to go, and what follows it. -/
def buildLoop (chunk eleSize : Nat) : Nat → Nat → PoolMemory → PoolMemory
  | 0, p, m =>
    { m with chunk := update m.chunk p chunk, nextBlock := update m.nextBlock p 0 }
  | n + 1, p, m =>
    buildLoop chunk eleSize n (p + eleSize)
      { m with
        chunk := update m.chunk p chunk
        nextBlock := update m.nextBlock p (p + eleSize) }

def startChunk (cache : Nat × Fin kBlockNum) (total chunk : Nat) (m : PoolMemory) : PoolMemory :=
  { m with
    cache := update m.cache chunk cache
    totalBlockNum := update m.totalBlockNum chunk total
    availableBlockNum := update m.availableBlockNum chunk total
    head := update m.head chunk (bufAddr chunk) }

def buildChunk (cache : Nat × Fin kBlockNum) (blockSize chunk : Nat) (m : PoolMemory) : PoolMemory :=
  let eleSize := blockSize + blockHeaderSize
  let total := (kChunkSize - chunkHeaderSize) / eleSize
  buildLoop chunk eleSize (total - 1) (bufAddr chunk) (m.startChunk cache total chunk)

/-- `BuildBlocks`. The pool has at most `fuel` chunks. -/
def buildBlocks (cache : Nat × Fin kBlockNum) (blockSize : Nat) : Nat → Nat → PoolMemory → PoolMemory
  | 0, _, m => m
  | fuel + 1, chunks, m =>
    if chunks = 0 then m
    else buildBlocks cache blockSize fuel (m.links.next chunks) (buildChunk cache blockSize chunks m)

end PoolMemory

namespace ChunkPool

variable (c : Nat) (i : Fin kBlockNum) (p : ChunkPool)

def setCache (c : Nat) (cache : TLSCache) : ChunkPool :=
  { p with caches := update p.caches c cache }

def blockCache (c : Nat) (i : Fin kBlockNum) : TLSBlockCache := (p.caches c).blockCaches i

def setBlockCache (p : ChunkPool) (c : Nat) (i : Fin kBlockNum) (b : TLSBlockCache) : ChunkPool :=
  p.setCache c ((p.caches c).setBlockCache i b)

def setNums (c total recyclable : Nat) : ChunkPool :=
  p.setCache c { p.caches c with totalChunkNum := total, recyclableChunkNum := recyclable }

def getChunks (n : Nat) (p : ChunkPool) : Except PoolFault (Nat × ChunkPool) :=
  if p.chunkNum < n then .ok (0, p)
  -- `--n` wraps around, and the loop leaves the list
  else if n = 0 then .error .nullPointer
  else
    let last := follow p.memory.links.next (n - 1) p.chunks
    if last = 0 then .error .nullPointer
    else
      .ok (p.chunks,
        { p with
          chunkNum := p.chunkNum - n
          chunks := p.memory.links.next last
          memory := p.memory.setLinks (p.memory.links.cutAfter last) })

def putChunks (head : Nat) (p : ChunkPool) : Except PoolFault ChunkPool :=
  if head = 0 then .ok p
  else
    match findLast p.memory.links.next p.totalChunkNum head with
    | none => .error .endlessLoop
    | some (last, n) =>
      .ok { p with
        memory := p.memory.setLinks (p.memory.links.joinAfter last p.chunks)
        chunks := head
        chunkNum := p.chunkNum + n }

def keepChunks (n c : Nat) (i : Fin kBlockNum) (chunks : Nat) (p : ChunkPool) : ChunkPool :=
  let cache := p.caches c
  let b := p.blockCache c i
  let memory := p.memory.buildBlocks (c, i) (kBlockSizes i) p.totalChunkNum chunks
  let p :=
    { p with memory := memory }.setBlockCache c i
      { b with
        totalSize := b.totalSize + n * kChunkSize
        recyclableSize := b.recyclableSize + n * kChunkSize
        recyclableChunks := chunks }
  p.setNums c (cache.totalChunkNum + n) (cache.recyclableChunkNum + n)

def openChunk : ChunkPool :=
  let cache := p.caches c
  let b := p.blockCache c i
  let chunk := b.recyclableChunks
  let next := p.memory.links.next chunk
  let p :=
    { p with memory := p.memory.setLinks (p.memory.links.cutAfter chunk) }.setBlockCache c i
      { b with
        availableChunks := chunk
        recyclableChunks := next
        recyclableSize := b.recyclableSize - kChunkSize }
  p.setNums c cache.totalChunkNum (cache.recyclableChunkNum - 1)

def takeBlock : Except PoolFault (Nat × ChunkPool) :=
  let b := p.blockCache c i
  let chunk := b.availableChunks
  let block := p.memory.head chunk
  if block = 0 then .error .nullPointer
  else
    let memory := p.memory.popBlock chunk
    let inUseSize := b.inUseSize + kBlockSizes i
    if memory.availableBlockNum chunk = 0 then
      .ok (block + blockHeaderSize,
        { p with memory := memory.setLinks (memory.links.dropFront chunk) }.setBlockCache c i
          { b with availableChunks := memory.links.next chunk, inUseSize := inUseSize })
    else
      .ok (block + blockHeaderSize,
        { p with memory := memory }.setBlockCache c i { b with inUseSize := inUseSize })

/-- `GetBlock` after its `DeferredDeallocate`; a null pointer stands for no memory. -/
def getBlock (opt : MemoryPoolInitOption) (c : Nat) (i : Fin kBlockNum) (p : ChunkPool) :
    Except PoolFault (Nat × ChunkPool) :=
  if (p.blockCache c i).availableChunks ≠ 0 then p.takeBlock c i
  else if (p.blockCache c i).recyclableChunks ≠ 0 then (p.openChunk c i).takeBlock c i
  else
    match p.getChunks opt.fetchChunkNum with
    | .error fault => .error fault
    | .ok (chunks, p') =>
      if chunks = 0 then .ok (0, p')
      else ((p'.keepChunks opt.fetchChunkNum c i chunks).openChunk c i).takeBlock c i

def freeBlock (owner : Nat) (i : Fin kBlockNum) (chunk block : Nat) (p : ChunkPool) : ChunkPool :=
  let b := p.blockCache owner i
  { p with memory := p.memory.pushBlock chunk block }.setBlockCache owner i
    { b with inUseSize := b.inUseSize - b.blockSize }

def addAvailable (owner : Nat) (i : Fin kBlockNum) (chunk : Nat) (p : ChunkPool) : ChunkPool :=
  let b := p.blockCache owner i
  { p with memory := p.memory.setLinks (p.memory.links.pushFront b.availableChunks chunk) }.setBlockCache
    owner i { b with availableChunks := chunk }

/-- The part of `PutBlock` that moves a chunk from `available_chunks` to `recyclable_chunks`. The
number of recyclable chunks is the one of the cache `c` that runs it. -/
def makeRecyclable (c owner : Nat) (i : Fin kBlockNum) (chunk : Nat) (p : ChunkPool) : ChunkPool :=
  let b := p.blockCache owner i
  let (available, links) := p.memory.links.unlink b.availableChunks chunk
  let p :=
    { p with memory := p.memory.setLinks (links.pushFront b.recyclableChunks chunk) }.setBlockCache
      owner i
      { b with
        availableChunks := available
        recyclableChunks := chunk
        recyclableSize := b.recyclableSize + kChunkSize }
  p.setNums c (p.caches c).totalChunkNum ((p.caches c).recyclableChunkNum + 1)

/-- `PutBlock` of the cache `c` for a block of a thread's own, up to its `Recycle`. -/
def returnBlock (c ptr : Nat) (p : ChunkPool) : ChunkPool :=
  let block := ptr - blockHeaderSize
  let chunk := p.memory.chunk block
  let (owner, i) := p.memory.cache chunk
  let p := p.freeBlock owner i chunk block
  let p := if p.memory.availableBlockNum chunk = 1 then p.addAvailable owner i chunk else p
  if p.memory.availableBlockNum chunk = p.memory.totalBlockNum chunk then p.makeRecyclable c owner i chunk
  else p

def recycleDue (opt : MemoryPoolInitOption) (cache : TLSCache) : Bool :=
  decide (opt.cacheRecycleThresholdSizeMb <<< 20 < cache.totalChunkNum * kChunkSize) &&
    decide (opt.recycleChunkNum ≤ cache.recyclableChunkNum)

def recycleClass : Except PoolFault ChunkPool :=
  let b := p.blockCache c i
  match p.putChunks b.recyclableChunks with
  | .error fault => .error fault
  | .ok p =>
    .ok (p.setBlockCache c i
      { b with recyclableChunks := 0, totalSize := b.totalSize - b.recyclableSize, recyclableSize := 0 })

def recycleEnd : ChunkPool :=
  p.setNums c ((p.caches c).totalChunkNum - (p.caches c).recyclableChunkNum) 0

def resetClass : Except PoolFault ChunkPool :=
  let b := p.blockCache c i
  match p.putChunks b.recyclableChunks with
  | .error fault => .error fault
  | .ok p => .ok (p.setBlockCache c i ⟨0, 0, b.blockSize, 0, 0, 0⟩)

def resetEnd : ChunkPool := p.setNums c 0 0

def setThreadId (id : Option Nat) (p : ChunkPool) : ChunkPool :=
  p.setCache c { p.caches c with threadId := id }

def setTasks (tasks : List Nat) (p : ChunkPool) : ChunkPool :=
  p.setCache c { p.caches c with threadDeallocateTasks := tasks }

end ChunkPool

end Vesal
