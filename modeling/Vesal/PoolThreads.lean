import Vesal.ChunkPool

/-!
# Threads that use the chunk pool

`Allocate`, `Deallocate` and the destructor of `TLSCacheGuard` as they run on any number of
threads, one step of one thread at a time.
-/

namespace Vesal

open Library

structure PoolRegion where
  virtualAddr : Nat
  len : Nat
deriving DecidableEq, Repr

/-- The regions of a pool: mapped memory, which does not start at the null pointer, and no byte
of it in two regions. -/
structure PoolRegions where
  regions : List PoolRegion
  mapped : ∀ r ∈ regions, 0 < r.virtualAddr
  disjoint : regions.Pairwise fun r r' =>
    r.virtualAddr + r.len ≤ r'.virtualAddr ∨ r'.virtualAddr + r'.len ≤ r.virtualAddr

def PoolRegion.chunks (r : PoolRegion) : List Nat :=
  (List.range (r.len / kChunkSize)).map fun i => r.virtualAddr + i * kChunkSize

def PoolRegions.chunks (rs : PoolRegions) : List Nat := rs.regions.flatMap PoolRegion.chunks

namespace ChunkPool

/-- A pool without memory. The pages that it gets are filled with zeros. -/
def empty : ChunkPool where
  memory := ⟨⟨fun _ => 0, fun _ => 0⟩, fun _ => 0, fun _ => (0, 0), fun _ => 0, fun _ => 0, fun _ => 0, fun _ => 0⟩
  chunks := 0
  chunkNum := 0
  totalChunkNum := 0
  tlsCaches := []
  orphanTlsCaches := []
  caches _ := TLSCache.new

def addChunk (p : ChunkPool) (c : Nat) : ChunkPool :=
  { p with memory := p.memory.setLinks (p.memory.links.joinAfter c p.chunks), chunks := c }

def splitRegion (p : ChunkPool) (r : PoolRegion) : ChunkPool :=
  r.chunks.foldl addChunk { p with chunkNum := p.chunkNum + r.len / kChunkSize }

def init (rs : PoolRegions) : ChunkPool :=
  let p := rs.regions.foldl splitRegion empty
  { p with totalChunkNum := p.chunkNum }

end ChunkPool

inductive PoolCall where
  | allocate (size : Nat)
  | deallocate (ptr : Nat)
deriving DecidableEq, Repr

/-- Where a `PutBlock` goes on: back to the caller of `Deallocate`, or to the loop of a
`DeferredDeallocate` in `GetBlock`, in `~TLSCacheGuard` or in `TLSCache::Reset`. -/
inductive AfterPut where
  | caller
  | getBlock (size : Nat)
  | guard
  | reset
deriving DecidableEq, Repr

inductive PoolStage where
  | idle
  /-- Before and behind `AdoptOrNewTlsCache`. -/
  | adopt (call : PoolCall)
  | attach (call : PoolCall)
  /-- At the start of `GetBlock`, and behind its `DeferredDeallocate`. -/
  | getBlock (size : Nat)
  | takeBlock (size : Nat)
  /-- At the loop of `DeferredDeallocate`. -/
  | deferred (k : AfterPut)
  /-- At the start of `PutBlock`, and before it hands the block to its owner. -/
  | putBlock (ptr : Nat)
  | push (owner ptr : Nat) (k : AfterPut)
  /-- At a pass of the loop of `Recycle`. -/
  | recycle (i : Nat) (k : AfterPut)
  /-- In `~TLSCacheGuard`: before `DetachThread`, and before it asks `Recyclable`. -/
  | detach
  | leave
  /-- In `~TLSCache`: at a pass of the loop of `Reset`, and before `RemoveTlsCache`. -/
  | reset (i : Nat)
  | remove
deriving DecidableEq, Repr

/-- A thread: where it is, the cache in its `g_tls_cache`, and what its last `Allocate` returned. -/
structure PoolThread where
  stage : PoolStage
  cache : Option Nat
  returned : Nat

/-- The pool and its threads. Callers hold the blocks in `live`, each with the size asked for;
`freeing` are those that a `Deallocate` was called for. -/
structure PoolRun where
  pool : ChunkPool
  threads : Nat → PoolThread
  live : List (Nat × Nat)
  freeing : List Nat

inductive PoolEvent where
  | allocate (t size : Nat)
  | deallocate (t ptr : Nat)
  /-- The thread ends, and its `g_tls_cache` is destroyed. -/
  | exit (t : Nat)
  /-- `AdoptOrNewTlsCache`; a new cache gets the address `fresh`. -/
  | adopt (t fresh : Nat)
  /-- The next step of a call or of the end of a thread. -/
  | advance (t : Nat)
deriving DecidableEq, Repr

def AfterPut.resume : AfterPut → PoolStage
  | .caller => .idle
  | k => .deferred k

/-- Where a thread is when the queue of `DeferredDeallocate` is empty. -/
def AfterPut.drained : AfterPut → PoolStage
  | .caller => .idle
  | .getBlock size => .takeBlock size
  | .guard => .detach
  | .reset => .reset 0

def PoolCall.start : PoolCall → PoolStage
  | .allocate size => .getBlock size
  | .deallocate ptr => .putBlock ptr

variable (opt : MemoryPoolInitOption) (r : PoolRun)

namespace PoolRun

def init (rs : PoolRegions) : PoolRun := ⟨ChunkPool.init rs, fun _ => ⟨.idle, none, 0⟩, [], []⟩

def setThread (t : Nat) (thread : PoolThread) : PoolRun :=
  { r with threads := Function.update r.threads t thread }

def goto (t : Nat) (stage : PoolStage) : PoolRun :=
  r.setThread t { r.threads t with stage := stage }

def dropLive (ptr : Nat) : PoolRun :=
  { r with live := r.live.eraseP fun b => b.1 == ptr, freeing := r.freeing.erase ptr }

def giveBlock (t size ptr : Nat) : PoolRun :=
  { r with live := if ptr = 0 then r.live else (ptr, size) :: r.live }.setThread t
    { r.threads t with stage := .idle, returned := ptr }

def enter (t : Nat) (call : PoolCall) : PoolRun :=
  match (r.threads t).cache with
  | none => r.goto t (.adopt call)
  | some _ => r.goto t call.start

def adoptOrNewTlsCache (t fresh : Nat) (call : PoolCall) : PoolRun :=
  match r.pool.orphanTlsCaches.getLast? with
  | none =>
    { r with pool := { r.pool.setCache fresh TLSCache.new with tlsCaches := fresh :: r.pool.tlsCaches } }.setThread t
      { r.threads t with stage := .attach call, cache := some fresh }
  | some c =>
    { r with pool := { r.pool with orphanTlsCaches := r.pool.orphanTlsCaches.dropLast } }.setThread t
      { r.threads t with stage := .attach call, cache := some c }

def getBlock (opt : MemoryPoolInitOption) (r : PoolRun) (t c size : Nat) (drained : Bool) :
    Except PoolFault PoolRun :=
  if h : getBlockIndex size < kBlockNum then
    let b := r.pool.blockCache c ⟨getBlockIndex size, h⟩
    if b.availableChunks = 0 ∧ b.recyclableChunks = 0 ∧ drained = false then
      .ok (r.goto t (.deferred (.getBlock size)))
    else
      match r.pool.getBlock opt c ⟨getBlockIndex size, h⟩ with
      | .error fault => .error fault
      | .ok (ptr, pool) => .ok ({ r with pool := pool }.giveBlock t size ptr)
  else .error .outOfArray

/-- `PutBlock` of the cache `c`, up to the push to another thread's queue or to the first section
of `Recycle`. -/
def putBlock (t c ptr : Nat) (k : AfterPut) :
    Except PoolFault PoolRun :=
  let chunk := r.pool.memory.chunk (ptr - blockHeaderSize)
  let owner := (r.pool.memory.cache chunk).1
  if chunk = 0 then .error .nullPointer
  else if owner ∉ r.pool.tlsCaches then .error .danglingCache
  else if (r.pool.caches owner).threadId ≠ (r.pool.caches c).threadId then .ok (r.goto t (.push owner ptr k))
  else
    let pool := r.pool.returnBlock c ptr
    let stage := if ChunkPool.recycleDue opt (pool.caches c) then .recycle 0 k else k.resume
    .ok (({ r with pool := pool }.dropLive ptr).goto t stage)

def push (t owner ptr : Nat) (k : AfterPut) : Except PoolFault PoolRun :=
  if owner ∉ r.pool.tlsCaches then .error .danglingCache
  else
    let pool := r.pool.setTasks owner ((r.pool.caches owner).threadDeallocateTasks ++ [ptr])
    .ok (({ r with pool := pool }.dropLive ptr).goto t k.resume)

variable (t c : Nat)

def deferred (k : AfterPut) : Except PoolFault PoolRun :=
  match (r.pool.caches c).threadDeallocateTasks with
  | [] => .ok (r.goto t k.drained)
  | task :: tasks => { r with pool := r.pool.setTasks c tasks }.putBlock opt t c task k

def recycle (r : PoolRun) (t c i : Nat) (k : AfterPut) : Except PoolFault PoolRun :=
  if h : i < kBlockNum then
    match r.pool.recycleClass c ⟨i, h⟩ with
    | .error fault => .error fault
    | .ok pool => .ok ({ r with pool := pool }.goto t (.recycle (i + 1) k))
  else .ok ({ r with pool := r.pool.recycleEnd c }.goto t k.resume)

def leave : PoolRun :=
  if (r.pool.caches c).recyclable then r.goto t (.deferred .reset)
  else
    { r with pool := { r.pool with orphanTlsCaches := r.pool.orphanTlsCaches ++ [c] } }.setThread t
      { r.threads t with stage := .idle, cache := none }

def reset (r : PoolRun) (t c i : Nat) : Except PoolFault PoolRun :=
  if h : i < kBlockNum then
    match r.pool.resetClass c ⟨i, h⟩ with
    | .error fault => .error fault
    | .ok pool => .ok ({ r with pool := pool }.goto t (.reset (i + 1)))
  else .ok ({ r with pool := r.pool.resetEnd c }.goto t .remove)

/-- `RemoveTlsCache`; the cache exists no longer. -/
def remove : PoolRun :=
  { r with pool := { r.pool with tlsCaches := r.pool.tlsCaches.erase c } }.setThread t
    { r.threads t with stage := .idle, cache := none }

def advance : Except PoolFault PoolRun :=
  match (r.threads t).stage with
  | .idle => .error .notReady
  | .adopt _ => .error .notReady
  | .attach call => .ok ({ r with pool := r.pool.setThreadId c (some t) }.goto t call.start)
  | .getBlock size => r.getBlock opt t c size false
  | .takeBlock size => r.getBlock opt t c size true
  | .deferred k => r.deferred opt t c k
  | .putBlock ptr => r.putBlock opt t c ptr .caller
  | .push owner ptr k => r.push t owner ptr k
  | .recycle i k => r.recycle t c i k
  | .detach => .ok ({ r with pool := r.pool.setThreadId c none }.goto t .leave)
  | .leave => .ok (r.leave t c)
  | .reset i => r.reset t c i
  | .remove => .ok (r.remove t c)

end PoolRun

def poolStep : PoolEvent → Except PoolFault PoolRun
  | .allocate t size =>
    if (r.threads t).stage ≠ .idle then .error .notReady
    else if kMemoryPoolMaxAllocate < size then .ok (r.giveBlock t size 0)
    else if size = 0 then .ok (r.giveBlock t size 0)
    else .ok (r.enter t (.allocate size))
  | .deallocate t ptr =>
    if (r.threads t).stage ≠ .idle then .error .notReady
    else if ptr = 0 then .ok r
    else .ok ({ r with freeing := ptr :: r.freeing }.enter t (.deallocate ptr))
  | .exit t =>
    if (r.threads t).stage ≠ .idle then .error .notReady
    else
      match (r.threads t).cache with
      | none => .ok r
      | some _ => .ok (r.goto t (.deferred .guard))
  | .adopt t fresh =>
    match (r.threads t).stage with
    | .adopt call => .ok (r.adoptOrNewTlsCache t fresh call)
    | _ => .error .notReady
  | .advance t =>
    match (r.threads t).cache with
    | none => .error .notReady
    | some c => r.advance opt t c

/-- The callers call from threads that are in no call, and give back blocks that they hold and no other
call is giving back. A new cache has an address that no cache has. -/
def poolAllowed : PoolEvent → Bool
  | .allocate t _ => (r.threads t).stage == .idle
  | .deallocate t ptr =>
    (r.threads t).stage == .idle && (ptr == 0 || (r.live.any fun b => b.1 == ptr) && !r.freeing.contains ptr)
  | .exit t => (r.threads t).stage == .idle
  | .adopt t fresh =>
    match (r.threads t).stage with
    | .adopt _ => !r.pool.tlsCaches.contains fresh
    | _ => false
  | .advance t =>
    match (r.threads t).stage with
    | .idle => false
    | .adopt _ => false
    | _ => true

def PoolRuns : PoolRun → PoolRun → Prop :=
  Runs (poolStep opt) fun r ev => poolAllowed r ev = true

end Vesal
