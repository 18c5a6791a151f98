import Vesal.MemoryPool

/-!
# Hugepages that the pool maps and unmaps

What `ChunkPool::Init` and `ChunkPool::Reset` ask of the operating system, and the chunks that
`Preallocate` puts on the central list, over any sequence of these calls.
-/

namespace Vesal

inductive HugepageOp where
  | alloc (pageSize pageNum : Nat) (node answer : Option Nat)
  | dealloc (region : PoolRegion)
deriving DecidableEq, Repr

variable (mapped : List PoolRegion)

/-- The regions that are mapped after a call. `mmap` maps nothing for a length of zero. -/
def HugepageOp.apply : HugepageOp → List PoolRegion
  | .alloc _ _ _ none => mapped
  | .alloc pageSize pageNum _ (some addr) =>
    if pageSize * pageNum = 0 then mapped else mapped ++ [⟨addr, pageSize * pageNum⟩]
  | .dealloc region => mapped.erase region

def mappedAfter (ops : List HugepageOp) : List PoolRegion := ops.foldl HugepageOp.apply mapped

namespace PoolPages

/-- The calls of the loop of `Preallocate`. When a page has no physical address, the new region and
those of `regions_` are unmapped, and `regions_` stays as it is; when there are no hugepages, nothing
is unmapped. -/
def preallocateOps (kernel : Kernel) (hp : HugePageSize) :
    (fuel call left : Nat) → (numa : List (Nat × Nat)) → List PoolRegion → List HugepageOp
  | 0, _, _, _, _ => []
  | fuel + 1, call, left, numa, regions =>
    if left = 0 then []
    else
      let pageNum := nextPageNum hp left numa
      let node := numa.head?.map Prod.fst
      let answer := kernel.allocHugepageFn call (getHugePageSize hp) pageNum node
      .alloc (getHugePageSize hp) pageNum node answer ::
        match answer with
        | none => []
        | some addr =>
          let region : PoolRegion := ⟨addr, getHugePageSize hp * pageNum⟩
          if pageNum = 0 then []
          else if !(regionChunks kernel hp addr pageNum).all fun c => c.physAddr ≠ 0 then
            .dealloc region :: regions.map .dealloc
          else preallocateOps kernel hp fuel (call + 1) (left - pageNum) (takeNuma pageNum numa) (regions ++ [region])

def initOps (kernel : Kernel) (opt : PoolInitOption) (pages : PoolPages) : List HugepageOp :=
  if pages.initialized then []
  else if !opt.validateInitOption then []
  else
    preallocateOps kernel opt.preallocPageSize (totalPageNum opt) 0 (totalPageNum opt) (numaAllocPageNum opt) pages.regions

end PoolPages

structure HugepageRun where
  pages : PoolPages
  pool : ChunkPool
  ops : List HugepageOp

inductive HugepageFault where
  /-- `VESAL_CHECK` or a division by zero. -/
  | aborted
  /-- A header is written where no memory is mapped. -/
  | unmapped
deriving DecidableEq, Repr

def headerMapped (c : Nat) : Bool :=
  mapped.any fun r => r.virtualAddr ≤ c && c + chunkHeaderSize ≤ r.virtualAddr + r.len

namespace HugepageRun

def new : HugepageRun := ⟨PoolPages.new, ChunkPool.empty, []⟩

/-- `Init`, with what it returns. The regions are split into chunks when all of them are there. -/
def init (kernel : Kernel) (opt : PoolInitOption) (r : HugepageRun) : Except HugepageFault (Bool × HugepageRun) :=
  match r.pages.init kernel opt with
  | none => .error .aborted
  | some (ok, pages) =>
    let ops := r.ops ++ r.pages.initOps kernel opt
    if r.pages.initialized then .ok (ok, r)
    else if !ok then .ok (ok, { r with pages := pages, ops := ops })
    else if !(pages.regions.flatMap PoolRegion.chunks).all (headerMapped (mappedAfter [] ops)) then .error .unmapped
    else
      let pool := pages.regions.foldl ChunkPool.splitRegion r.pool
      .ok (ok, ⟨pages, { pool with totalChunkNum := pool.chunkNum }, ops⟩)

/-- `Reset` of a pool without caches. Pages that are mapped later are filled with zeros. -/
def reset (r : HugepageRun) : HugepageRun :=
  if !r.pages.initialized then r
  else ⟨r.pages.reset, ChunkPool.empty, r.ops ++ r.pages.regions.map .dealloc⟩

end HugepageRun

inductive HugepageEvent where
  | init (kernel : Kernel) (opt : PoolInitOption)
  | reset

def hugepageStep (r : HugepageRun) : HugepageEvent → Except HugepageFault HugepageRun
  | .init kernel opt => (r.init kernel opt).map Prod.snd
  | .reset => .ok r.reset

end Vesal
