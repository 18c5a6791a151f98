import Vesal.AddressManager
import Vesal.PoolThreads

/-!
# Hugepages of the memory pool

`ChunkPool::Init`, `Preallocate`, `Reset` and `Register` as far as they get hugepages and enter
them into the address manager, and the threads that look addresses up. The chunks are those of
the regions that `Preallocate` leaves.
-/

namespace Vesal

open AddressManager

inductive HugePageSize where
  | k2MB
  | k1GB
  | k512MB
  | kUnknown
deriving DecidableEq, Repr

def getHugePageSize : HugePageSize → Nat
  | .k2MB => 2 * 1024 * 1024
  | .k1GB => 1024 * 1024 * 1024
  | .k512MB => 512 * 1024 * 1024
  | .kUnknown => 0

def hugePageSizeToAlignType : HugePageSize → AlignType
  | .k2MB => .kPage2Mb
  | .k1GB => .kPage1Gb
  | .k512MB => .kPage512Mb
  | .kUnknown => .kUnknown

abbrev kMaxNodeNum : Nat := 32

/-- The fields of `MemoryPoolInitOption` that `Init` reads, with those that the caches read. -/
structure PoolInitOption extends MemoryPoolInitOption where
  initMemPool : Bool
  preallocPageSize : HugePageSize
  preallocSizeMb : Nat
  preallocNumaMb : Fin kMaxNodeNum → Nat

/-- The `std::accumulate` of `ValidateInitOption`: it adds in an `int`, which is then a `size_t`. -/
def PoolInitOption.sum (opt : PoolInitOption) : Nat :=
  let sum := (List.finRange kMaxNodeNum).foldl (fun acc i => Int.bmod (acc + opt.preallocNumaMb i) (2 ^ 32)) 0
  (sum % 2 ^ 64).toNat

variable (kernel : Kernel) (infos : List MemoryInfo) (opt : PoolInitOption)

def PoolInitOption.validateInitOption : Bool :=
  if !opt.initMemPool then true
  else if opt.preallocPageSize = .kUnknown then false
  else !(opt.sum ≠ 0 && opt.sum ≠ opt.preallocSizeMb)

/-- What the operating system answers: `AllocHugepageFn` by the number of calls before it, the
entries of `/proc/self/pagemap` by the address and of `/proc/kpageflags` by the frame number,
with zero where the file cannot be read, and `getpagesize`. -/
structure Kernel where
  allocHugepageFn : (call pageSize pageNum : Nat) → (node : Option Nat) → Option Nat
  pagemap : Nat → Nat
  kpageflags : Nat → Nat
  getpagesize : Nat

def kPFNMask : Nat := 0x7FFFFFFFFFFFFF

def Kernel.getPageFrameNumberOrZero (addr : Nat) : Nat := kernel.pagemap addr &&& kPFNMask

def Kernel.calcPhysAddr (addr pfn : Nat) : Nat :=
  if pfn = 0 then 0 else (pfn * kernel.getpagesize + addr % kernel.getpagesize) % 2 ^ 64

def isMemoryPinned (pageFlag : Nat) : Bool := pageFlag.testBit 18 || pageFlag.testBit 17

/-- The address of a page as `Preallocate` and `FillPhysAddrIfMissing` compute it. -/
def Kernel.physAddrOf (addr : Nat) : Nat :=
  kernel.calcPhysAddr addr (kernel.getPageFrameNumberOrZero addr)

structure MemoryInfo where
  virtualAddr : Nat
  len : Nat
  pageSize : Nat
deriving DecidableEq, Repr

namespace AddressManager

def validateExternalMemInfo (info : MemoryInfo) : Bool :=
  if info.virtualAddr = 0 then false
  else if info.len = 0 then false
  else if info.pageSize ≠ vesalPagesize 30 ∧ info.pageSize ≠ vesalPagesize 21 ∧ info.pageSize ≠ vesalPagesize 29 then
    false
  else if !vesalIsPageAligned info.virtualAddr info.pageSize then false
  else if info.len % info.pageSize ≠ 0 then false
  else true

/-- The pages of the memory, with the addresses that `FillPhysAddrIfMissing` gives them. -/
def externalChunks : List PhysChunk :=
  infos.flatMap fun info => (List.range (info.len / info.pageSize)).map fun i =>
    let startAddr := (info.virtualAddr + i * info.pageSize) % 2 ^ 64
    ⟨startAddr, kernel.physAddrOf startAddr, pageSizeToAlignType info.pageSize⟩

/-- `chunk_num` of `AddExternalEntries`, which is counted apart from the chunks. -/
def externalChunkNum : Nat :=
  infos.foldl (fun chunkNum info => (chunkNum + info.len / info.pageSize) % 2 ^ 64) 0

def addExternalEntries (table : AddressMap) : Bool × AddressMap :=
  let chunks := externalChunks kernel infos
  if !infos.all validateExternalMemInfo then (false, table)
  else if !chunks.all fun c => isMemoryPinned (kernel.kpageflags (kernel.getPageFrameNumberOrZero c.startAddr)) then
    (false, table)
  else if !chunks.all fun c => c.physAddr ≠ 0 then (false, table)
  else (true, (chunks.take (externalChunkNum infos)).foldl AddressMap.assign table)

end AddressManager

structure PoolPages where
  initialized : Bool
  addrManager : Option AddressMap
  regions : List PoolRegion

namespace PoolPages

def new : PoolPages := ⟨false, none, []⟩

/-- `prealloc_numa_mb` in pages, by node, of the nodes that have some. -/
def numaAllocPageNum : List (Nat × Nat) :=
  (List.finRange kMaxNodeNum).filterMap fun i =>
    if 0 < opt.preallocNumaMb i then
      some (i.val, ((opt.preallocNumaMb i * 1024 * 1024 + getHugePageSize opt.preallocPageSize - 1) % 2 ^ 64) /
        getHugePageSize opt.preallocPageSize)
    else none

def totalPageNum : Nat :=
  max (((opt.preallocSizeMb * 1024 * 1024 + getHugePageSize opt.preallocPageSize - 1) % 2 ^ 64) /
    getHugePageSize opt.preallocPageSize) ((numaAllocPageNum opt).map Prod.snd).sum

def kChunkFetchOptions : HugePageSize → Nat
  | .k2MB => 512
  | _ => 1

def takeNuma (pageNum : Nat) : List (Nat × Nat) → List (Nat × Nat)
  | [] => []
  | (node, num) :: numa => if num - pageNum = 0 then numa else (node, num - pageNum) :: numa

def nextPageNum (hp : HugePageSize) (left : Nat) (numa : List (Nat × Nat)) : Nat :=
  match numa with
  | [] => min left (kChunkFetchOptions hp)
  | (_, num) :: _ => min (min left (kChunkFetchOptions hp)) num

def regionChunks (hp : HugePageSize) (addr pageNum : Nat) : List PhysChunk :=
  (List.range pageNum).map fun i =>
    ⟨addr + i * getHugePageSize hp, kernel.physAddrOf (addr + i * getHugePageSize hp), hugePageSizeToAlignType hp⟩

/-- The loop of `Preallocate` with at most `fuel` pages to go: the value returned, or none if
`VESAL_CHECK` stops the process. -/
def preallocateLoop (kernel : Kernel) (hp : HugePageSize) :
    (fuel call left : Nat) → (numa : List (Nat × Nat)) → AddressMap → List PoolRegion →
      Option (Bool × AddressMap × List PoolRegion)
  | 0, _, _, numa, table, regions => if numa = [] then some (true, table, regions) else none
  | fuel + 1, call, left, numa, table, regions =>
    if left = 0 then if numa = [] then some (true, table, regions) else none
    else
      let pageNum := nextPageNum hp left numa
      match kernel.allocHugepageFn call (getHugePageSize hp) pageNum (numa.head?.map Prod.fst) with
      | none => some (false, table, regions)
      | some addr =>
        if pageNum = 0 then some (false, table, regions)
        else
          let chunks := regionChunks kernel hp addr pageNum
          if !chunks.all fun c => c.physAddr ≠ 0 then some (false, table, regions)
          else
            preallocateLoop kernel hp fuel (call + 1) (left - pageNum) (takeNuma pageNum numa)
              (chunks.foldl AddressMap.assign table) (regions ++ [⟨addr, getHugePageSize hp * pageNum⟩])

variable (pages : PoolPages)

/-- `Preallocate` of a pool that is not initialized. A page size of zero is divided by. -/
def preallocate : Option (Bool × PoolPages) :=
  if opt.preallocPageSize = .kUnknown then none
  else
    match preallocateLoop kernel opt.preallocPageSize (totalPageNum opt) 0 (totalPageNum opt) (numaAllocPageNum opt)
        AddressMap.empty pages.regions with
    | none => none
    | some (ok, table, regions) => some (ok, ⟨ok, some table, regions⟩)

def init : Option (Bool × PoolPages) :=
  if pages.initialized then some (true, pages)
  else if !opt.validateInitOption then some (false, pages)
  else preallocate kernel opt pages

def reset : PoolPages := if !pages.initialized then pages else new

def register : Bool × PoolPages :=
  if !pages.initialized then (false, pages)
  else
    match pages.addrManager with
    | none => (false, pages)
    | some table =>
      let (ok, table) := addExternalEntries kernel infos table
      (ok, { pages with addrManager := some table })

end PoolPages

inductive Lookup where
  | physAddr (order : List AlignType) (vaddr : Fin (2 ^ 64))
  | bound (order : List AlignType) (vaddr : Fin (2 ^ 64)) (vLen maxNum : Nat) (paddrs paddrSizes : Nat → Nat)

inductive LookupAnswer where
  | physAddr (paddr : Nat)
  | bound (ret : Nat) (paddrs paddrSizes : Nat → Nat)

def Lookup.run (table : AddressMap) (cache : AddressMap) : Lookup → LookupAnswer × AddressMap
  | .physAddr order vaddr =>
    let (paddr, cache) := getPhysAddr table order vaddr cache
    (.physAddr paddr, cache)
  | .bound order vaddr vLen maxNum paddrs paddrSizes =>
    let b := getPhysAddrBound table order vaddr vLen paddrs paddrSizes maxNum cache
    (.bound b.ret b.paddrs b.paddrSizes, b.cache)

/-- The pool with the cache `t_tls_memory_info_by_vaddr_` of every thread. -/
structure TranslationRun where
  pages : PoolPages
  caches : Nat → AddressMap

def TranslationRun.new : TranslationRun := ⟨PoolPages.new, fun _ => AddressMap.empty⟩

inductive TranslationEvent where
  | init (kernel : Kernel) (opt : PoolInitOption)
  /-- `Reset` on the thread `t`, which clears the cache of this thread. -/
  | reset (t : Nat)
  | register (kernel : Kernel) (infos : List MemoryInfo)
  | lookup (t : Nat) (l : Lookup)

inductive TranslationFault where
  | aborted
  | nullPointer
deriving DecidableEq, Repr

def translationStep (r : TranslationRun) : TranslationEvent → Except TranslationFault TranslationRun
  | .init kernel opt =>
    match r.pages.init kernel opt with
    | none => .error .aborted
    | some (_, pages) => .ok { r with pages := pages }
  | .reset t =>
    if !r.pages.initialized then .ok r
    else .ok ⟨r.pages.reset, Function.update r.caches t AddressMap.empty⟩
  | .register kernel infos => .ok { r with pages := (r.pages.register kernel infos).2 }
  | .lookup t l =>
    match r.pages.addrManager with
    | none => .error .nullPointer
    | some table => .ok { r with caches := Function.update r.caches t (l.run table (r.caches t)).2 }

end Vesal
