import Vesal.Library.ByteMemory

/-!
# Scatter-gather buffers

`QatBuf` of `qat_buffer.cc`: the description of user memory for the hardware. Addresses are
natural numbers, the null pointer is `0`. User memory that the device can reach is used in place,
everything else goes through a block of the memory pool.
-/

namespace Vesal

open Library Function

def vesalMaxSglNum : Nat := 32

/-- `IOBlock`. A deleter is named by a number; `none` is the null pointer. -/
structure IOBlock where
  size : Nat
  data : Nat
  ctx : Nat
  deleter : Option Nat
  size_lt : size < 2 ^ 32
deriving DecidableEq, Repr

def IOBlock.extent (b : IOBlock) : Extent := ⟨b.data, b.size⟩

abbrev IOVector := List IOBlock

def IOVector.extents (v : IOVector) : List Extent := v.map IOBlock.extent

/-- The pool as its users see it: the blocks handed out, and the answers to the coming calls of
`Allocate`. -/
structure PoolState where
  mem : Memory
  allocated : List Extent
  answers : List (Option Extent)

variable (pool : PoolState) (dev : DmaUnit) (buf : QatBuf) (caller : List Extent)

/-- A block that `Allocate(size)` may return: large enough, not null, and apart from the blocks handed
out and the memory of the caller. -/
def PoolState.Fresh (size : Nat) (block : Extent) : Prop :=
  0 < block.start ∧ 0 < block.len ∧ size ≤ block.len ∧
    ∀ e ∈ pool.allocated ++ caller, block.Disjoint e

instance (pool : PoolState) (caller : List Extent) (size : Nat) (block : Extent) :
    Decidable (pool.Fresh caller size block) := inferInstanceAs (Decidable (_ ∧ _))

/-- `MemoryPool::Allocate`. It fails when the next answer is none; no pool gives one that is not fresh. -/
def PoolState.allocate (size : Nat) :
    Option Extent × PoolState :=
  match pool.answers with
  | [] => (none, pool)
  | none :: answers => (none, { pool with answers := answers })
  | some block :: answers =>
    if pool.Fresh caller size block then
      (some block, { pool with allocated := block :: pool.allocated, answers := answers })
    else (none, { pool with answers := answers })

def PoolState.deallocate (ptr : Nat) : PoolState :=
  { pool with allocated := pool.allocated.eraseP (fun e => e.start == ptr) }

structure FlatBuffer where
  pData : Nat
  dataLenInBytes : Nat
deriving DecidableEq, Repr

/-- What `FillOneBuffer` asks about the device: whether it shares the address space of
the process, and in how many pieces a range is mapped for it. -/
structure DmaUnit where
  svmEnabled : Bool
  lookUpAddrAcrossBound : Nat → Nat → Nat

structure QatBuf where
  numBuffers : Nat
  pBuffers : Nat → FlatBuffer
  dmaAble : Nat → Bool
  dstUsrData : Nat
  dstUsrDataLen : Nat

/-- An index outside the user's blocks, or outside the `VESAL_MAX_SGL_NUM` buffers. -/
inductive SglFault where
  | blockIndex (index : Int)
  | bufferIndex (index : Nat)
deriving DecidableEq, Repr

variable (usrData : IOVector)

def blockAt (index : Nat) : Except SglFault IOBlock :=
  match usrData[index]? with
  | some b => .ok b
  | none => .error (.blockIndex index)

def startPointLoop : List IOBlock → Nat → Nat → Except SglFault (Nat × Nat)
  | [], currIndex, _ => .error (.blockIndex currIndex)
  | b :: rest, currIndex, frontLeftSize =>
    if frontLeftSize < b.size then .ok (currIndex, frontLeftSize)
    else startPointLoop rest (currIndex + 1) (frontLeftSize - b.size)

def findSglStartPoint (frontOffset : Nat) : Except SglFault (Nat × Nat) :=
  if frontOffset = 0 then .ok (0, 0) else startPointLoop usrData 0 frontOffset

/-- The loop of `FindSglEndPoint` over the blocks up to `curr_index`, last first; `curr_index` is the
number of those still to come. -/
def endPointLoop : List IOBlock → Nat → Except SglFault (Nat × Nat)
  | [], _ => .error (.blockIndex (-1))
  | b :: rest, backLeftSize =>
    if backLeftSize < b.size then .ok (rest.length, b.size - backLeftSize)
    else endPointLoop rest (backLeftSize - b.size)

def findSglEndPoint (backOffset : Nat) : Except SglFault (Nat × Nat) :=
  if backOffset = 0 then do
    let last ← blockAt usrData (usrData.length - 1)
    return (usrData.length - 1, last.size)
  else endPointLoop usrData.reverse backOffset

def fillOneBuffer (usrBuf usrBufLen : Nat)
    (needCopyContent : Bool) (index : Nat) (buf : QatBuf) (pool : PoolState) :
    Bool × QatBuf × PoolState :=
  let dmaAble := dev.svmEnabled || dev.lookUpAddrAcrossBound usrBuf usrBufLen == 1
  let buf := { buf with dmaAble := update buf.dmaAble index dmaAble }
  if dmaAble then
    (true, { buf with pBuffers := update buf.pBuffers index ⟨usrBuf, usrBufLen⟩ }, pool)
  else
    match pool.allocate caller usrBufLen with
    | (none, pool) =>
      (false, { buf with pBuffers := update buf.pBuffers index ⟨0, usrBufLen⟩ }, pool)
    | (some block, pool) =>
      let buf := { buf with pBuffers := update buf.pBuffers index ⟨block.start, usrBufLen⟩ }
      if needCopyContent then
        (true, buf,
          { pool with mem := writeBytes pool.mem block.start (readBytes pool.mem usrBuf usrBufLen) })
      else (true, buf, pool)

def freeOneBuffer (s : QatBuf × PoolState) (i : Nat) : QatBuf × PoolState :=
  ({ s.1 with pBuffers := update s.1.pBuffers i ⟨0, 0⟩ },
    if s.1.dmaAble i then s.2 else s.2.deallocate (s.1.pBuffers i).pData)

def freeDataIfNecessary (pool : PoolState) : QatBuf × PoolState :=
  if dev.svmEnabled then ({ buf with numBuffers := 0 }, pool)
  else
    let (buf, pool) := (List.range buf.numBuffers).foldl freeOneBuffer (buf, pool)
    ({ buf with numBuffers := 0 }, pool)

def fillSrcLoop (dev : DmaUnit) (usrData : IOVector) (dmaBeginIndex dmaEndIndex : Nat)
    (firstUnit firstUnitLen dmaEndLen : Nat) :
    Nat → Nat → QatBuf → PoolState → Except SglFault (Bool × QatBuf × PoolState)
  | 0, _, buf, pool => .ok (true, buf, pool)
  | n + 1, i, buf, pool => do
    let block ← blockAt usrData i
    let (usrBuf, dmaDataLen) :=
      if i = dmaBeginIndex then (firstUnit, firstUnitLen)
      else if i = dmaEndIndex then (block.data, dmaEndLen)
      else (block.data, block.size)
    if vesalMaxSglNum ≤ buf.numBuffers then .error (.bufferIndex buf.numBuffers)
    else
      match fillOneBuffer dev usrData.extents usrBuf (dmaDataLen % 2 ^ 32) true buf.numBuffers buf
        pool with
      | (false, buf, pool) =>
        let (buf, pool) := freeDataIfNecessary dev buf pool
        .ok (false, buf, pool)
      | (true, buf, pool) =>
        fillSrcLoop dev usrData dmaBeginIndex dmaEndIndex firstUnit firstUnitLen dmaEndLen n (i + 1)
          { buf with numBuffers := buf.numBuffers + 1 } pool

def totalSize : Nat := (usrData.map IOBlock.size).sum

def fillSrc (frontOffset backOffset : Nat) (buf : QatBuf)
    (pool : PoolState) : Except SglFault (Bool × QatBuf × PoolState) :=
  -- both sides are `size_t`
  if totalSize usrData % 2 ^ 64 ≤ (frontOffset + backOffset) % 2 ^ 64 then .ok (false, buf, pool)
  else do
    let (dmaBeginIndex, dmaBeginOffset) ← findSglStartPoint usrData frontOffset
    let first ← blockAt usrData dmaBeginIndex
    let firstUnit := first.data + dmaBeginOffset
    let (dmaEndIndex, dmaEndLen) ← findSglEndPoint usrData backOffset
    if dmaBeginIndex = dmaEndIndex then
      let dmaDataLen := (dmaEndLen + 2 ^ 64 - dmaBeginOffset) % 2 ^ 64
      match fillOneBuffer dev usrData.extents firstUnit (dmaDataLen % 2 ^ 32) true 0 buf pool with
      | (false, buf, pool) => return (false, buf, pool)
      | (true, buf, pool) => return (true, { buf with numBuffers := 1 }, pool)
    else
      fillSrcLoop dev usrData dmaBeginIndex dmaEndIndex firstUnit (first.size - dmaBeginOffset)
        dmaEndLen (dmaEndIndex + 1 - dmaBeginIndex) dmaBeginIndex { buf with numBuffers := 0 } pool

/-- `FillDst`. `caller` is the memory of the request. -/
def fillDst (usrData : IOBlock) (frontOffset backOffset : Nat)
    (buf : QatBuf) (pool : PoolState) : Bool × QatBuf × PoolState :=
  if usrData.size ≤ (frontOffset + backOffset) % 2 ^ 64 then (false, buf, pool)
  else
    let dmaLen := (usrData.size + 2 ^ 65 - frontOffset - backOffset) % 2 ^ 32
    fillOneBuffer dev caller (usrData.data + frontOffset) dmaLen false 0
      { buf with dstUsrData := usrData.data, dstUsrDataLen := usrData.size, numBuffers := 1 } pool

def decompCopyBackIfNecessary (produced : Nat) (mem : Memory) : Memory :=
  if !dev.svmEnabled && !buf.dmaAble 0 then
    writeBytes mem buf.dstUsrData (readBytes mem (buf.pBuffers 0).pData produced)
  else mem

/-- Memory after `CompCopyBackIfNecessary`. The sizes of header and footer are those of
the two lists. -/
def compCopyBackIfNecessary (produced : Nat)
    (header footer : List UInt8) (mem : Memory) : Memory :=
  let mem := writeBytes mem buf.dstUsrData header
  let mem :=
    if !dev.svmEnabled && !buf.dmaAble 0 then
      writeBytes mem (buf.dstUsrData + header.length) (readBytes mem (buf.pBuffers 0).pData produced)
    else mem
  writeBytes mem (buf.dstUsrData + header.length + produced) footer

end Vesal
