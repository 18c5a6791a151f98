import Vesal.CodecCallback
import Vesal.CypherChannel

/-!
# The cache of scatter-gather buffers

`QatBufCache` of `qat_buffer.cc` with the metadata of its buffers, and the calls that
`QatCodecEngine` and `QatCypherChannel` make on it.
-/

namespace Vesal

open Library

/-- `QatBuf` with the metadata of its `CpaBufferList`, which is a block of the memory pool. -/
structure MetaBuf extends QatBuf where
  pPrivateMetaData : Nat

/-- The `VESAL_CHECK`s, and an index outside an array. -/
inductive CacheFault where
  | freeMeta (numBuffers : Nat)
  | getOne (inCacheNum : Nat)
  | clear (inCacheNum : Nat)
  | sgl (fault : SglFault)
deriving DecidableEq, Repr

/-- `InitMeta`; `malloc` is whether there is memory for the `CpaBufferList`. -/
def MetaBuf.initMeta (metaSize : Nat) (malloc : Bool) (pool : PoolState) : Option MetaBuf × PoolState :=
  if !malloc then (none, pool)
  else
    match pool.allocate [] metaSize with
    | (none, pool) => (none, pool)
    | (some block, pool) => (some ⟨⟨0, fun _ => ⟨0, 0⟩, fun _ => false, 0, 0⟩, block.start⟩, pool)

def MetaBuf.freeMeta (one : MetaBuf) (pool : PoolState) : Except CacheFault PoolState :=
  if one.numBuffers ≠ 0 then .error (.freeMeta one.numBuffers)
  else .ok (pool.deallocate one.pPrivateMetaData)

/-- `bufs` is the list that starts at `bufs_`. `inCacheNum` is a `uint32_t` and `bufSize` a
`size_t`. -/
structure QatBufCache where
  bufs : List MetaBuf
  bufferListPrivateMetaSize : Nat
  isInited : Bool
  inCacheNum : Nat
  bufSize : Nat

namespace QatBufCache

def new (maxInQatSize : Nat) : QatBufCache :=
  ⟨[], 0, false, 0, (maxInQatSize <<< 1 + maxInQatSize >>> 1) % 2 ^ 64⟩

def clearLoop : List MetaBuf → Nat → PoolState → Except CacheFault (Nat × PoolState)
  | [], inCacheNum, pool => .ok (inCacheNum, pool)
  | one :: next, inCacheNum, pool => do
    let pool ← one.freeMeta pool
    clearLoop next ((inCacheNum + 2 ^ 32 - 1) % 2 ^ 32) pool

def clear (cache : QatBufCache) (pool : PoolState) : Except CacheFault (QatBufCache × PoolState) := do
  let (inCacheNum, pool) ← clearLoop cache.bufs cache.inCacheNum pool
  if inCacheNum ≠ 0 then .error (.clear inCacheNum)
  else
    return ({ cache with
      bufs := []
      bufferListPrivateMetaSize := 0
      isInited := false
      inCacheNum := inCacheNum }, pool)

def initLoop (metaSize : Nat) (mallocs : Nat → Bool) :
    Nat → Nat → List MetaBuf → PoolState → Bool × List MetaBuf × PoolState
  | 0, _, bufs, pool => (true, bufs, pool)
  | n + 1, i, bufs, pool =>
    match MetaBuf.initMeta metaSize (mallocs i) pool with
    | (none, pool) => (false, bufs, pool)
    | (some one, pool) => initLoop metaSize mallocs n (i + 1) (one :: bufs) pool

def init (metaSize : Nat) (mallocs : Nat → Bool) (cache : QatBufCache) (pool : PoolState) :
    Except CacheFault (Bool × QatBufCache × PoolState) :=
  let cache := { cache with bufferListPrivateMetaSize := metaSize }
  match initLoop metaSize mallocs cache.bufSize 0 cache.bufs pool with
  | (false, bufs, pool) => do
    let (cache, pool) ← clear { cache with bufs := bufs } pool
    return (false, cache, pool)
  | (true, bufs, pool) =>
    return (true, { cache with bufs := bufs, inCacheNum := cache.bufSize % 2 ^ 32, isInited := true }, pool)

def getOne (cache : QatBufCache) : Except CacheFault (Option MetaBuf × QatBufCache) :=
  match cache.bufs with
  | one :: next =>
    .ok (some one, { cache with bufs := next, inCacheNum := (cache.inCacheNum + 2 ^ 32 - 1) % 2 ^ 32 })
  | [] => if cache.inCacheNum ≠ 0 then .error (.getOne cache.inCacheNum) else .ok (none, cache)

/-- `ReturnOne`; `none` is the null pointer. -/
def returnOne (one : Option MetaBuf) (cache : QatBufCache) : QatBufCache :=
  match one with
  | none => cache
  | some one => { cache with bufs := one :: cache.bufs, inCacheNum := (cache.inCacheNum + 1) % 2 ^ 32 }

end QatBufCache

inductive CacheRequest where
  | codec (args : CodecRequestArgs)
  | cypher (args : CypherReqArgs)

namespace CacheRequest

def src : CacheRequest → IOVector
  | codec args => args.src
  | cypher args => args.src

def dst : CacheRequest → IOBlock
  | codec args => args.dst
  | cypher args => args.dst

def srcOffsets : CacheRequest → Nat × Nat
  | codec args => if args.direction = .kComp then (0, 0) else headerFooterSize args.codecAlgorithm
  | cypher _ => (0, 0)

def dstOffsets : CacheRequest → Nat × Nat
  | codec args => if args.direction = .kComp then headerFooterSize args.codecAlgorithm else (0, 0)
  | cypher _ => (0, 0)

def caller (request : CacheRequest) : List Extent := request.src.extents ++ [request.dst.extent]

end CacheRequest

structure CacheConfig where
  dev : DmaUnit
  maxInQatSize : Nat
  metaSize : Nat

/-- A cache in use. `inFlight` are the buffers of the callback contexts, and `boundaries` is the
cache before and after every call of `Init`, `GetOne`, `ReturnOne` and `Clear`, latest first.
The other calls do not touch it. -/
structure BufCacheRun where
  cache : QatBufCache
  pool : PoolState
  inFlight : List (MetaBuf × MetaBuf)
  boundaries : List QatBufCache

variable (cfg : CacheConfig) (r : BufCacheRun)

namespace BufCacheRun

def start (pool : PoolState) : BufCacheRun :=
  ⟨.new cfg.maxInQatSize, pool, [], [.new cfg.maxInQatSize]⟩

def pass (cache : QatBufCache) : BufCacheRun :=
  { r with cache := cache, boundaries := cache :: r.boundaries }

def getOne (r : BufCacheRun) : Except CacheFault (Option MetaBuf × BufCacheRun) := do
  let (one, cache) ← r.cache.getOne
  return (one, r.pass cache)

def returnOne (one : Option MetaBuf) (r : BufCacheRun) : BufCacheRun := r.pass (r.cache.returnOne one)

def answering (answers : List (Option Extent)) (r : BufCacheRun) : BufCacheRun :=
  { r with pool := { r.pool with answers := answers } }

def fillSrc (cfg : CacheConfig) (request : CacheRequest) (one : MetaBuf) (r : BufCacheRun) :
    Except CacheFault (Bool × MetaBuf × BufCacheRun) :=
  match Vesal.fillSrc cfg.dev request.src request.srcOffsets.1 request.srcOffsets.2 one.toQatBuf r.pool with
  | .error fault => .error (.sgl fault)
  | .ok (ok, buf, pool) => .ok (ok, { one with toQatBuf := buf }, { r with pool := pool })

def fillDst (cfg : CacheConfig) (request : CacheRequest) (one : MetaBuf) (r : BufCacheRun) :
    Bool × MetaBuf × BufCacheRun :=
  let (ok, buf, pool) := Vesal.fillDst cfg.dev request.caller request.dst request.dstOffsets.1
    request.dstOffsets.2 one.toQatBuf r.pool
  (ok, { one with toQatBuf := buf }, { r with pool := pool })

def freeDataIfNecessary (cfg : CacheConfig) (one : MetaBuf) (r : BufCacheRun) : MetaBuf × BufCacheRun :=
  let (buf, pool) := Vesal.freeDataIfNecessary cfg.dev one.toQatBuf r.pool
  ({ one with toQatBuf := buf }, { r with pool := pool })

def init (cfg : CacheConfig) (mallocs : Nat → Bool) (r : BufCacheRun) : Except CacheFault BufCacheRun := do
  let (_, cache, pool) ← r.cache.init cfg.metaSize mallocs r.pool
  return { r.pass cache with pool := pool }

def resetCb (held : MetaBuf × MetaBuf) (r : BufCacheRun) : BufCacheRun :=
  let (src, r) := r.freeDataIfNecessary cfg held.1
  let r := r.returnOne (some src)
  let (dst, r) := r.freeDataIfNecessary cfg held.2
  r.returnOne (some dst)

/-- The buffers of a submission. The pool answers `FillSrc` with `srcAnswers` and `FillDst` with
`dstAnswer`, and `accepted` is what the driver says. -/
def submit (request : CacheRequest) (srcAnswers : List (Option Extent))
    (dstAnswer : Option Extent) (accepted : Bool) (r : BufCacheRun) : Except CacheFault BufCacheRun := do
  let (src, r) ← r.getOne
  let (dst, r) ← r.getOne
  match src, dst with
  | some src, some dst =>
    let (fillSrcR, src, r) ← (r.answering srcAnswers).fillSrc cfg request src
    let (fillDstR, dst, r) := (r.answering [dstAnswer]).fillDst cfg request dst
    if !fillSrcR || !fillDstR then
      let (src, r) := if fillSrcR then r.freeDataIfNecessary cfg src else (src, r)
      let (dst, r) := if fillDstR then r.freeDataIfNecessary cfg dst else (dst, r)
      return (r.returnOne (some src)).returnOne (some dst)
    else if accepted then return { r with inFlight := r.inFlight ++ [(src, dst)] }
    else return r.resetCb cfg (src, dst)
  | src, dst => return (r.returnOne src).returnOne dst

/-- `Close`: the contexts that are left are reset before the cache is destroyed. -/
def close : Except CacheFault BufCacheRun := do
  let r := { r.inFlight.foldl (fun r held => r.resetCb cfg held) r with inFlight := [] }
  let (cache, pool) ← r.cache.clear r.pool
  return { r.pass cache with pool := pool }

end BufCacheRun

/-- `reset` is a completion, or the end of a context that was replaced. -/
inductive CacheEvent where
  | init (mallocs : Nat → Bool) (answers : List (Option Extent))
  | submit (request : CacheRequest) (srcAnswers : List (Option Extent)) (dstAnswer : Option Extent)
      (accepted : Bool)
  | reset (k : Nat)
  | close

/-- Requests are made of channels that are initialised, and these are not initialised again. -/
def cacheStep : CacheEvent → Except CacheFault BufCacheRun
  | .init mallocs answers => if r.cache.isInited then .ok r else (r.answering answers).init cfg mallocs
  | .submit request srcAnswers dstAnswer accepted =>
    if r.cache.isInited then r.submit cfg request srcAnswers dstAnswer accepted else .ok r
  | .reset k =>
    match r.inFlight[k]? with
    | none => .ok r
    | some held => .ok ({ r with inFlight := r.inFlight.eraseIdx k }.resetCb cfg held)
  | .close => r.close cfg

end Vesal
