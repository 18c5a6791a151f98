import Vesal.AddressManager
import Vesal.DataFlow

/-!
# The DSA engine

`DsaCtxFactory` of `dsa_ctx_factory.cc` with the functions of `dsa_uio_config.c` that fill the
descriptors, the part of the device that they rely on, and `DsaEngine::CheckCompletion`. A
descriptor is its operation and the address of its completion record; the flags only ask for
that record, and mark the fence. Addresses are 64 bits wide.
-/

namespace Vesal

open Library Function AddressManager

abbrev kDsaHwDescSize : Nat := 64
abbrev kDsaCompletionRecordSize : Nat := 32

inductive DsaOperation where
  | batch (descCount descListAddr : Nat)
  | memmove (srcAddr dstAddr xferSize : Nat)
  | copyCrc (srcAddr dstAddr xferSize : Nat) (crcSeed : BitVec 32)
  | crcgen (srcAddr xferSize : Nat) (crcSeed : BitVec 32)
  | fence
deriving DecidableEq, Repr

structure DsaHwDesc where
  operation : DsaOperation
  completionAddr : Nat
deriving DecidableEq, Repr

structure DsaCtx where
  descMemoryChunk : Nat
  dsaHwDescs : Nat
  dsaHwDescsPhys : Nat
  completionRecordMemoryChunk : Nat
  dsaCompletionRecords : Nat
  dsaCompletionRecordsPhys : Nat
deriving DecidableEq, Repr

variable (table : AddressMap)

/-- `LookUpAddr` on a thread that has cached nothing, which answers as on any other thread. -/
def lookUpAddr (addr : Nat) : Nat :=
  (getPhysAddr table defaultOrder addr .empty).1

/-- `LookUpAddrIfNotAcrossBound` on such a thread. -/
def lookUpAddrIfNotAcrossBound (table : AddressMap) (addr vLen : Nat) : Nat :=
  AddressManager.lookUpAddrIfNotAcrossBound table addr vLen (fun _ => 0) (fun _ => 0) .empty

/-- `VESAL_CRC_REVISE` of a seed, which is passed on in 32 bits. -/
def vesalCrcRevise (seed : BitVec 64) : BitVec 32 := (~~~ seed).setWidth 32

def getNextAlignedAddress (addr alignment : Nat) : Nat := (addr + alignment - 1) % 2 ^ 64 &&& (2 ^ 64 - alignment)

def elementAddr (base size k : Nat) : Nat := (base + k * size) % 2 ^ 64

namespace DsaCtxFactory

def preallocateCtx (descMemoryChunk completionRecordMemoryChunk : Nat) :
    Except StatusCode DsaCtx :=
  if descMemoryChunk = 0 ∨ completionRecordMemoryChunk = 0 then .error .kResourceBusy
  else
    let physAddr1 := lookUpAddr table descMemoryChunk
    let physAddr2 := lookUpAddr table completionRecordMemoryChunk
    if physAddr1 = 0 ∨ physAddr2 = 0 then .error .kUnknown
    else .ok
      { descMemoryChunk := descMemoryChunk
        dsaHwDescs := getNextAlignedAddress descMemoryChunk kDsaHwDescSize
        dsaHwDescsPhys := getNextAlignedAddress physAddr1 kDsaHwDescSize
        completionRecordMemoryChunk := completionRecordMemoryChunk
        dsaCompletionRecords := getNextAlignedAddress completionRecordMemoryChunk kDsaCompletionRecordSize
        dsaCompletionRecordsPhys := getNextAlignedAddress physAddr2 kDsaCompletionRecordSize }

/-- The descriptors written, with their addresses, `desc_offset`, and `crc_results`. -/
structure Fill where
  descs : List (Nat × DsaHwDesc)
  descOffset : Nat
  crcResults : Nat → Nat

structure Built where
  descNum : Nat
  descs : List (Nat × DsaHwDesc)
  crcResults : Nat → Nat

variable (ctx : DsaCtx) (fill : Fill)

/-- `FillBatch`, `FillCrc`, `FillCopy`, `FillCopyWithCrc` and `FillFence` at `desc_offset`. -/
def put (operation : DsaOperation) : Fill :=
  { fill with
    descs := fill.descs ++ [(elementAddr ctx.dsaHwDescs kDsaHwDescSize fill.descOffset,
      ⟨operation, elementAddr ctx.dsaCompletionRecordsPhys kDsaCompletionRecordSize fill.descOffset⟩)]
    descOffset := fill.descOffset + 1 }

/-- The operation, with its record as the CRC result of the operation `i`. -/
def putCrc (operation : DsaOperation) (i : Nat) : Fill :=
  { put ctx fill operation with
    crcResults := update fill.crcResults i
      (elementAddr ctx.dsaCompletionRecords kDsaCompletionRecordSize fill.descOffset) }

def fillCopyMaybeWithCrc (src len dst : Nat) (seed : BitVec 32) (enableCrc : Bool)
    (i : Nat) : Fill :=
  if enableCrc then putCrc ctx fill (.copyCrc src dst (len % 2 ^ 32) seed) i
  else
    { put ctx fill (.memmove src dst (len % 2 ^ 32)) with crcResults := update fill.crcResults i 0 }

def isNoOverlap (src dst size : Nat) : Bool :=
  decide ((src + size) % 2 ^ 64 ≤ dst ∨ (dst + size) % 2 ^ 64 ≤ src)

variable (crcResults : Nat → Nat) (op : DataFlowMoveOperation)

def isCopyWithCrcOk : Bool :=
  match op.src, op.srcLen with
  | [src], len :: _ => isNoOverlap src op.dst len
  | _, _ => false

def needsCrc : Bool := op.enableCrc && !isCopyWithCrcOk op

def copyLoop (table : AddressMap) (ctx : DsaCtx) (op : DataFlowMoveOperation) (i dstPhysAddr : Nat) :
    List (Nat × Nat) → Nat → Fill → Except StatusCode (Nat × Fill)
  | [], sum, fill => .ok (sum, fill)
  | (src, len) :: segments, sum, fill =>
    let srcPhysAddr := lookUpAddrIfNotAcrossBound table src len
    if srcPhysAddr = 0 then .error .kBadData
    else
      copyLoop table ctx op i dstPhysAddr segments ((sum + len) % 2 ^ 64)
        (fillCopyMaybeWithCrc ctx fill srcPhysAddr len ((dstPhysAddr + sum) % 2 ^ 64) (vesalCrcRevise op.seed)
          (op.enableCrc && isCopyWithCrcOk op) i)

def moveLoop (table : AddressMap) (ctx : DsaCtx) :
    List DataFlowMoveOperation → Nat → Fill → Except StatusCode (List Nat × Fill)
  | [], _, fill => .ok ([], fill)
  | op :: ops, i, fill => do
    let dstPhysAddr := lookUpAddr table op.dst
    if dstPhysAddr = 0 then .error .kBadData
    let (sum, fill) ← copyLoop table ctx op i dstPhysAddr (op.src.zip op.srcLen) 0 fill
    if lookUpAddrIfNotAcrossBound table op.dst sum = 0 then .error .kBadData
    let (sums, fill) ← moveLoop table ctx ops (i + 1) fill
    .ok (sum :: sums, fill)

def crcLoop (table : AddressMap) (ctx : DsaCtx) : List (DataFlowMoveOperation × Nat) → Nat → Fill → Fill
  | [], _, fill => fill
  | (op, sum) :: ops, i, fill =>
    if needsCrc op then
      crcLoop table ctx ops (i + 1)
        (putCrc ctx fill (.crcgen (lookUpAddr table op.dst) (sum % 2 ^ 32) (vesalCrcRevise op.seed)) i)
    else crcLoop table ctx ops (i + 1) fill

def buildMoveBatch (ops : List DataFlowMoveOperation) :
    Except StatusCode Built := do
  let crcNum := ops.countP needsCrc
  let copyNum := (ops.map fun op => op.src.length).sum
  let descNum := 1 + copyNum + crcNum + (if crcNum ≠ 0 then 1 else 0)
  let fill := put ctx ⟨[], 0, crcResults⟩
    (.batch (descNum - 1) (elementAddr ctx.dsaHwDescsPhys kDsaHwDescSize 1))
  let (sums, fill) ← moveLoop table ctx ops 0 fill
  let fill := if crcNum ≠ 0 then crcLoop table ctx (ops.zip sums) 0 (put ctx fill .fence) else fill
  .ok ⟨descNum, fill.descs, fill.crcResults⟩

def buildMoveSingle
    (src len : Nat) : Except StatusCode Built :=
  let srcPhysAddr := lookUpAddrIfNotAcrossBound table src len
  let dstPhysAddr := lookUpAddrIfNotAcrossBound table op.dst len
  if srcPhysAddr = 0 ∨ dstPhysAddr = 0 then .error .kBadData
  else
    let fill := fillCopyMaybeWithCrc ctx ⟨[], 0, crcResults⟩ srcPhysAddr len dstPhysAddr (vesalCrcRevise op.seed)
      op.enableCrc 0
    .ok ⟨1, fill.descs, fill.crcResults⟩

def buildMoveCtx (ops : List DataFlowMoveOperation) :
    Except StatusCode Built :=
  match ops with
  | [op] =>
    match op.src, op.srcLen with
    | [src], len :: _ =>
      if !op.enableCrc || isNoOverlap src op.dst len then buildMoveSingle table ctx crcResults op src len
      else buildMoveBatch table ctx crcResults ops
    | _, _ => buildMoveBatch table ctx crcResults ops
  | ops => buildMoveBatch table ctx crcResults ops

def crcgenLoop (table : AddressMap) (ctx : DsaCtx) : List DataFlowCrcOperation → Nat → Fill → Except StatusCode Fill
  | [], _, fill => .ok fill
  | op :: ops, i, fill =>
    let srcPhysAddr := lookUpAddrIfNotAcrossBound table op.src op.len
    if srcPhysAddr = 0 then .error .kBadData
    else
      crcgenLoop table ctx ops (i + 1)
        (putCrc ctx fill (.crcgen srcPhysAddr (op.len % 2 ^ 32) (vesalCrcRevise op.seed)) i)

def buildCrcCtx (ops : List DataFlowCrcOperation) :
    Except StatusCode Built := do
  if ops.length = 1 then
    let fill ← crcgenLoop table ctx ops 0 ⟨[], 0, crcResults⟩
    .ok ⟨1, fill.descs, fill.crcResults⟩
  else
    let descNum := ops.length + 1
    let fill := put ctx ⟨[], 0, crcResults⟩
      (.batch (descNum - 1) (elementAddr ctx.dsaHwDescsPhys kDsaHwDescSize 1))
    let fill ← crcgenLoop table ctx ops 0 fill
    .ok ⟨descNum, fill.descs, fill.crcResults⟩

def buildCtx : DataFlowOperations → Except StatusCode Built
  | .move ops => buildMoveCtx table ctx crcResults ops
  | .crc ops => buildCrcCtx table ctx crcResults ops

end DsaCtxFactory

/-- Physical memory, and the field `crc_val` of the completion record at a physical address. -/
structure DsaHardware where
  mem : Memory
  crcVal : Nat → BitVec 32

namespace DsaHardware

/-- The CRC of the device: the register starts with the complement of the seed and is complemented. -/
def crc (seed : BitVec 32) (bytes : List UInt8) : BitVec 32 := ~~~ crcUpdate (~~~ seed) bytes

/-- A descriptor of a batch or alone. A copy with CRC whose ranges overlap is an error of the device. -/
def exec (hw : DsaHardware) (desc : DsaHwDesc) : Option DsaHardware :=
  match desc.operation with
  | .batch _ _ => some hw
  | .memmove src dst size => some { hw with mem := memmove hw.mem dst src size }
  | .copyCrc src dst size seed =>
    if Extent.Disjoint ⟨src, size⟩ ⟨dst, size⟩ then
      some ⟨memmove hw.mem dst src size,
        update hw.crcVal desc.completionAddr (crc seed (readBytes hw.mem src size))⟩
    else none
  | .crcgen src size seed =>
    some { hw with crcVal := update hw.crcVal desc.completionAddr (crc seed (readBytes hw.mem src size)) }
  | .fence => some hw

def execAll (hw : DsaHardware) (order : List (Nat × DsaHwDesc)) : Option DsaHardware :=
  order.foldlM (fun hw d => hw.exec d.2) hw

/-- What the device runs once the first descriptor is submitted: that one, or those of the batch, which
it reads from the physical address of their list. -/
def fetched : List (Nat × DsaHwDesc) → List (Nat × DsaHwDesc)
  | [] => []
  | d :: descs =>
    match d.2.operation with
    | .batch descCount descListAddr => (List.range descCount).filterMap fun k =>
        (d :: descs).find? fun d => lookUpAddr table d.1 = elementAddr descListAddr kDsaHwDescSize k
    | _ => [d]

/-- The orders in which the device may run descriptors, each with its address: a fence and what is
behind it start when all before it is done. -/
def Permitted (descs order : List (Nat × DsaHwDesc)) : Prop :=
  order.Perm descs ∧ order.Pairwise fun d d' =>
    ∀ f ∈ descs, f.2.operation = .fence → ¬ (d'.1 < f.1 ∧ f.1 ≤ d.1)

end DsaHardware

/-- `crc_output` as `DsaEngine::CheckCompletion` stores it once the device is done. -/
def dsaCrcOutput (num : Nat) (crcResults : Nat → Nat) (hw : DsaHardware) : List (BitVec 64) :=
  (List.range num).map fun i =>
    if crcResults i = 0 then 0 else (~~~ hw.crcVal (lookUpAddr table (crcResults i))).setWidth 64

/-- The memory of the host after the device changed the physical memory: what is not mapped is as it
was. -/
def hostView (host : Memory) (phys : Memory) : Memory := fun addr =>
  match table.tableLookUp addr defaultOrder with
  | some c => phys (physAddrAt c addr)
  | none => host addr

end Vesal
