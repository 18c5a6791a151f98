import Vesal.QatBuffer
import Vesal.TimerManager

/-!
# Requests in flight

What `QatCodecEngine` and `QatCypherChannel` share: the ring of request slots and callback
contexts (`dedicated_pool.h`), the timers of the requests, those that free the memory of requests
that timed out, the cache of `QatBuf`s, and the queue of the requests in the hardware. `π` is what a
channel keeps of a request besides, `κ` its callback context.
-/

namespace Vesal

def isPowerOfTwo (n : Nat) : Bool := n != 0 && n &&& (n - 1) == 0

/-- `next_power_of_two`; `63 - log2 n` is `__builtin_clzl(n)`. -/
def nextPowerOfTwo (n : Nat) : Nat :=
  if isPowerOfTwo n then n else 0x8000000000000000 >>> (63 - n.log2 - 1)

/-- How many requests a channel keeps in the hardware: a positive `size_t` for which
`next_power_of_two` is defined. -/
structure RingSize where
  maxInQatSize : Nat
  pos : 0 < maxInQatSize
  le : maxInQatSize ≤ 2 ^ 63

variable (dev : DmaUnit) (size : RingSize)

def RingSize.slotNum : Nat := nextPowerOfTwo size.maxInQatSize

def RingSize.slotOf (reqId : Nat) : Nat := reqId &&& (size.slotNum - 1)

def qatTimeoutMs : Nat := 21000

/-- What every request has: its memory and the context of the user. -/
class IORequest (R : Type) where
  src : R → IOVector
  dst : R → IOBlock
  ctx : R → Nat

def emptyBlock : IOBlock := ⟨0, 0, 0, none, by decide⟩

/-- `RequestMeta` and `CypherReqMeta`. `srcBlocks` is the array `src_blocks`, `srcNumBlocks`
is `src.num_blocks`, and `timerCtx` names the timer. -/
structure RequestMeta (π : Type) where
  reqId : Nat
  timerCtx : Nat
  valid : Bool
  srcBlocks : Nat → IOBlock
  srcNumBlocks : Nat
  dst : IOBlock
  info : π

/-- The blocks of a request are copied over the first entries of the array. -/
def RequestMeta.storeMemory {π : Type} (m : RequestMeta π) (src : IOVector) (dst : IOBlock) :
    RequestMeta π :=
  { m with
    srcBlocks := fun i => (src[i]?).getD (m.srcBlocks i)
    srcNumBlocks := src.length
    dst := dst }

/-- `RequestCbContext` and `CypherCbContext`. `owner` is whether the pointer to the channel is
set; `cleared` is the context after `Reset`. -/
class CallbackContext (κ : Type) where
  owner : κ → Bool
  reqId : κ → Nat
  srcBuf : κ → Option QatBuf
  dstBuf : κ → Option QatBuf
  cleared : κ → κ

/-- The pair of `IOVector` and `IOBlock` that a free timer holds. The vector is copied with
its pointer: `slot` says whose `src_blocks` it points to. -/
structure FreeEntry where
  numBlocks : Nat
  slot : Nat
  dst : IOBlock
deriving DecidableEq, Repr

/-- `cbs` are the callback contexts ever made, `cbPool` those in the slots, and `hw` those of
the requests that the hardware has not completed, oldest first. `deleted` are the calls of deleters. -/
structure InFlight (π κ : Type) where
  nextReqId : Nat
  inQatNum : Nat
  metas : Nat → RequestMeta π
  cbs : Nat → κ
  cbPool : Nat → Nat
  nextCb : Nat
  discardedCbCtxs : List Nat
  timers : TimerManager Nat
  freeTimers : TimerManager FreeEntry
  bufs : List QatBuf
  pool : PoolState
  hw : List Nat
  deleted : List (Nat × Nat)

namespace InFlight

variable {π κ : Type}

def init (firstReqId timeoutTs freeTimeoutTs : Nat) (info : π) (cbs : Nat → κ)
    (pool : PoolState) : InFlight π κ where
  nextReqId := firstReqId
  inQatNum := 0
  metas := fun _ => ⟨0, 0, false, fun _ => emptyBlock, 0, emptyBlock, info⟩
  cbs := cbs
  cbPool := fun slot => slot
  nextCb := size.slotNum
  discardedCbCtxs := []
  timers := .new timeoutTs
  freeTimers := .new freeTimeoutTs
  bufs := List.replicate (size.maxInQatSize <<< 1 + size.maxInQatSize >>> 1)
    ⟨0, fun _ => ⟨0, 0⟩, fun _ => false, 0, 0⟩
  pool := pool
  hw := []
  deleted := []

def setMeta (s : InFlight π κ) (slot : Nat) (m : RequestMeta π) : InFlight π κ :=
  { s with metas := Function.update s.metas slot m }

def setCb (s : InFlight π κ) (c : Nat) (cb : κ) : InFlight π κ :=
  { s with cbs := Function.update s.cbs c cb }

def returnBuf (buf : Option QatBuf) (s : InFlight π κ) : InFlight π κ :=
  match buf with
  | none => s
  | some b =>
    { s with
      bufs := (freeDataIfNecessary dev b s.pool).1 :: s.bufs
      pool := (freeDataIfNecessary dev b s.pool).2 }

def resetCb [CallbackContext κ] (c : Nat) (s : InFlight π κ) : InFlight π κ :=
  let cb := s.cbs c
  let s := s.returnBuf dev (CallbackContext.srcBuf cb)
  let s := s.returnBuf dev (CallbackContext.dstBuf cb)
  s.setCb c (CallbackContext.cleared cb)

def dropMeta (slot : Nat) (s : InFlight π κ) : InFlight π κ :=
  if (s.metas slot).valid then
    { s.setMeta slot { s.metas slot with valid := false } with
      timers := s.timers.removeTimer (s.metas slot).timerCtx }
  else s

/-- `CleanUpReqData`; `none` is the null pointer. -/
def cleanUpReqData [CallbackContext κ] (slot c : Option Nat) (s : InFlight π κ) :
    InFlight π κ :=
  let s := match slot with
    | some slot => s.dropMeta slot
    | none => s
  match c with
  | some c => s.resetCb dev c
  | none => s

def matchAndInvalidateFlightReq (reqId : Nat) (s : InFlight π κ) : InFlight π κ :=
  s.setMeta (size.slotOf reqId) { s.metas (size.slotOf reqId) with valid := false }

/-- `ReplaceNewRequestCbContext`: a new context takes the slot, the hardware may still use the old one. -/
def replaceNewRequestCbContext (newCb : κ → κ) (reqId : Nat) (s : InFlight π κ) :
    InFlight π κ :=
  let old := s.cbPool (size.slotOf reqId)
  { s.setCb s.nextCb (newCb (s.cbs old)) with
    cbPool := Function.update s.cbPool (size.slotOf reqId) s.nextCb
    nextCb := s.nextCb + 1
    discardedCbCtxs := s.discardedCbCtxs ++ [old] }

def interceptInflightReq (newCb : κ → κ) (slot : Nat) (s : InFlight π κ) :
    InFlight π κ :=
  let reqId := (s.metas slot).reqId
  (s.matchAndInvalidateFlightReq size reqId).replaceNewRequestCbContext size newCb reqId

def addFreeTimer (now slot : Nat) (s : InFlight π κ) : InFlight π κ :=
  let m := s.metas slot
  { s with freeTimers := (s.freeTimers.addTimer now ⟨m.srcNumBlocks, slot, m.dst⟩).2 }

def deleterCall (b : IOBlock) : List (Nat × Nat) :=
  match b.deleter with
  | none => []
  | some deleter => [(deleter, b.ctx)]

def freeBlocks (e : FreeEntry) (s : InFlight π κ) : InFlight π κ :=
  let src := (List.range e.numBlocks).map (s.metas e.slot).srcBlocks
  { s with deleted := s.deleted ++ (deleterCall e.dst ++ src.flatMap deleterCall) }

def handleFreeTimeout (now : Nat) (s : InFlight π κ) : InFlight π κ :=
  (s.freeTimers.due now).foldl (fun s t => s.freeBlocks t.timerArg)
    { s with freeTimers := s.freeTimers.handleTimeout now }

def submit (c : Nat) (s : InFlight π κ) : InFlight π κ :=
  { s with
    hw := s.hw ++ [c]
    inQatNum := s.inQatNum + 1
    nextReqId := s.nextReqId + 1 }

def tagInFlight (now slot : Nat) (s : InFlight π κ) : InFlight π κ :=
  { s.setMeta slot { s.metas slot with timerCtx := (s.timers.addTimer now slot).1, valid := true } with
    timers := (s.timers.addTimer now slot).2 }

end InFlight

end Vesal
