import Vesal.Checksum
import Vesal.Codec
import Vesal.InFlight
import Vesal.ReqRingQueue

/-!
# The KAE channel

`KaeCodecChannel` of `kae_codec_channel.cc`. The library is a queue of requests for each session: it
accepts a request or refuses it, and polling a session completes the oldest. Contexts are named by
their slots in `req_context_pool_`. The metrics and the calls of `user_cb`, which change nothing
here, are left out.
-/

namespace Vesal.Kae

open Library Function

def maxKaeConcurrency : Nat := 1024

inductive KaeStatus where
  | succ | invalPara | initFail | allocFail | hwTimeoutFail | dstBufOverflow | compFail | setFail | releaseFail
  | other (code : Int)
deriving DecidableEq, Repr

def kaeStatusToStatusCode : KaeStatus → StatusCode
  | .succ => .kOk
  | .invalPara => .kInvalidArgument
  | .initFail => .kChannelError
  | .allocFail => .kResourceBusy
  | .hwTimeoutFail => .kTimeout
  | .dstBufOverflow => .kOverflow
  | .compFail | .setFail | .releaseFail | .other _ => .kUnknown

structure KaezipBuffer where
  data : Nat
  bufLen : Nat
deriving DecidableEq, Repr

/-- `buf` are the entries from the pointer on, also those behind what was allocated. -/
structure KaezipBufferList where
  buf : Nat → KaezipBuffer
  bufNum : Nat

structure KaezipResult where
  status : KaeStatus
  srcSize : Nat
  dstLen : Nat
  mem : Memory

/-- The temporary of `SwCalcCRC32`: its bytes by index, also behind its end, the offset, and the ranges
written so far. -/
structure Gather where
  tmpBuffer : Memory
  offset : Nat
  writes : List Extent

variable (mem : Memory)

def Gather.copy (g : Gather) (b : KaezipBuffer) : Gather where
  tmpBuffer := writeBytes g.tmpBuffer g.offset (readBytes mem b.data b.bufLen)
  offset := g.offset + b.bufLen
  writes := g.writes ++ [⟨g.offset, b.bufLen⟩]

variable (l : KaezipBufferList)

def KaezipBufferList.buffers : List KaezipBuffer := (List.range l.bufNum).map l.buf

def gatherBuffers : Gather :=
  l.buffers.foldl (Gather.copy mem) ⟨fun _ => 0, 0, []⟩

def swCalcCRC32 (len : Nat) : BitVec 32 × List Extent :=
  if l.bufNum = 1 then (computeCRC32 kCrc32cInitialValue (readBytes mem (l.buf 0).data len), [])
  else
    let g := gatherBuffers mem l
    (computeCRC32 kCrc32cInitialValue (readBytes g.tmpBuffer 0 len), g.writes)

/-- `req_ring_id` is a `uint64_t` that holds an `int64_t` and is passed on as one. -/
structure ReqContext where
  reqId : Nat
  reqRingId : Int
  srcBufferList : KaezipBufferList
  dstBufferList : KaezipBufferList
  usrCtx : Nat
  isCompress : Bool

def srcBufferCapacity : Nat := vesalMaxSglNum

structure KaeArgs where
  src : List Nat
  srcLen : List UInt32
  dst : Nat
  dstLen : UInt32
  ctx : Nat
deriving DecidableEq, Repr

/-- `std::accumulate` from the `int` zero: a sum is an `unsigned int` and becomes an `int`
again. -/
def accumulateLen (srcLen : List UInt32) : Int :=
  srcLen.foldl (fun acc len => (acc + len.toNat).bmod (2 ^ 32)) 0

variable (compress : Bool) (args : KaeArgs)

def argsCheck : StatusCode :=
  if args.src = [] ∨ args.srcLen = [] ∨ args.dst = 0 ∨ args.dstLen = 0 then .kInvalidArgument
  else if args.src.length ≠ args.srcLen.length then .kInvalidArgument
  -- Kae has 255 SGL and 8MB size in total limit
  else if 255 < args.src.length ∨ ((8 <<< 20 : Nat) : Int) < accumulateLen args.srcLen then .kInvalidArgument
  else .kOk

def KaezipBufferList.fill (src : List Nat) (srcLen : List UInt32) : KaezipBufferList where
  buf i := if i < src.length then ⟨src.getD i 0, (srcLen.getD i 0).toNat⟩ else l.buf i
  bufNum := src.length

def prepareCtx (reqId : Nat) (args : KaeArgs) (c : ReqContext) : ReqContext :=
  { c with
    usrCtx := args.ctx
    reqId := reqId
    srcBufferList := c.srcBufferList.fill args.src args.srcLen
    dstBufferList := c.dstBufferList.fill [args.dst] [args.dstLen] }

/-- A request in a session. `number` counts the accepted requests. -/
structure PendingOp where
  slot : Nat
  number : Nat
deriving DecidableEq, Repr

structure Push where
  id : Int
  headId : Nat
deriving DecidableEq, Repr

/-- The `ctx` arguments of the accepted requests and what `NewReq` returned for them, what the library
reported of each, the contexts written while a request of theirs was pending, the results pushed
and those that `Poll` returned. -/
structure KaeLog where
  accepted : List Nat
  ringIds : List Int
  completed : Nat → Option KaezipResult
  overwritten : List Nat
  pushes : List Push
  returned : List CodecResult

/-- `inflight_num_` counts the requests in the two sessions and does not wrap. -/
structure KaeCodecChannel where
  checksumType : CodecChecksumType
  reqId : Nat
  inflightNum : Nat
  inflightReqQueue : InflightReqRingQueue CodecResult
  reqContextPool : Nat → ReqContext
  compressSess : List PendingOp
  decompressSess : List PendingOp
  log : KaeLog

variable (ch : KaeCodecChannel)

namespace KaeCodecChannel

/-- The channel after `Init`; `contexts` is what the new contexts hold. -/
def init (checksumType : CodecChecksumType) (contexts : Nat → ReqContext) : KaeCodecChannel where
  checksumType := checksumType
  reqId := 0
  inflightNum := 0
  inflightReqQueue := .new (nextPowerOfTwo maxKaeConcurrency) (failedResult 0 .kOk)
  reqContextPool := contexts
  compressSess := []
  decompressSess := []
  log := ⟨[], [], fun _ => none, [], [], []⟩

def sess : List PendingOp :=
  if compress then ch.compressSess else ch.decompressSess

def setSess (sess : List PendingOp) (ch : KaeCodecChannel) : KaeCodecChannel :=
  if compress then { ch with compressSess := sess } else { ch with decompressSess := sess }

def pending : List PendingOp := ch.compressSess ++ ch.decompressSess

def slot : Nat := ch.reqId &&& (maxKaeConcurrency - 1)

def codecResult (result : KaezipResult) (c : ReqContext) : CodecResult :=
  let status := kaeStatusToStatusCode result.status
  let consumed := result.srcSize % 2 ^ 32
  let produced := result.dstLen % 2 ^ 32
  if ch.checksumType = .kCrc32 ∧ status = .kOk then
    { consumed := consumed
      produced := produced
      inChecksum := (swCalcCRC32 result.mem c.srcBufferList consumed).1.setWidth 64
      outChecksum := (swCalcCRC32 result.mem c.dstBufferList produced).1.setWidth 64
      status := status
      ctx := c.usrCtx }
  else ⟨consumed, produced, 0, 0, status, c.usrCtx⟩

/-- `KaeCallback` for the request `p`, which has left its session. -/
def kaeCallback (result : KaezipResult) (p : PendingOp) (ch : KaeCodecChannel) : KaeCodecChannel :=
  let c := ch.reqContextPool p.slot
  { ch with
    inflightReqQueue := ch.inflightReqQueue.pushResult (ch.codecResult result c) c.reqRingId
    inflightNum := ch.inflightNum - 1
    log :=
      { ch.log with
        completed := update ch.log.completed p.number (some result)
        pushes := ch.log.pushes ++ [⟨c.reqRingId, ch.inflightReqQueue.headId⟩] } }

def accept (ctx slot : Nat) (ch : KaeCodecChannel) : KaeCodecChannel :=
  let c := ch.reqContextPool slot
  let (ringId, queue) := ch.inflightReqQueue.newReq
  let ch := ch.setSess compress (ch.sess compress ++ [⟨slot, ch.log.accepted.length⟩])
  { ch with
    reqId := (ch.reqId + 1) % 2 ^ 64
    inflightNum := ch.inflightNum + 1
    inflightReqQueue := queue
    reqContextPool := update ch.reqContextPool slot { c with reqRingId := ringId }
    log := { ch.log with accepted := ch.log.accepted ++ [ctx], ringIds := ch.log.ringIds ++ [ringId] } }

def prepare : KaeCodecChannel :=
  let c := prepareCtx ch.reqId args (ch.reqContextPool ch.slot)
  { ch with
    reqContextPool := update ch.reqContextPool ch.slot { c with isCompress := compress }
    log :=
      { ch.log with
        overwritten := ch.log.overwritten ++ if ch.slot ∈ ch.pending.map PendingOp.slot then [ch.slot] else [] } }

def submitSGLAsync (r : KaeStatus) (ch : KaeCodecChannel) :
    StatusCode × KaeCodecChannel :=
  if argsCheck args ≠ .kOk then (argsCheck args, ch)
  else if ch.inflightNum = maxKaeConcurrency then (.kResourceBusy, ch)
  else if r ≠ .succ then (kaeStatusToStatusCode r, ch.prepare compress args)
  else (.kOk, (ch.prepare compress args).accept compress args.ctx ch.slot)

def compressSGLAsync : KaeArgs → KaeStatus → KaeCodecChannel → StatusCode × KaeCodecChannel := submitSGLAsync true

def decompressSGLAsync : KaeArgs → KaeStatus → KaeCodecChannel → StatusCode × KaeCodecChannel := submitSGLAsync false

/-- `KAEZIP_async_polling_in_session`: the oldest requests of a session complete, with the
results given, and call back. -/
def asyncPollingInSession (compress : Bool) : List KaezipResult → KaeCodecChannel → KaeCodecChannel
  | [], ch => ch
  | result :: results, ch =>
    match ch.sess compress with
    | [] => ch
    | p :: rest => asyncPollingInSession compress results ((ch.setSess compress rest).kaeCallback result p)

/-- `Poll`. The library completes at most as many requests as it is told to. -/
def poll (compressed decompressed : List KaezipResult) (maxNum : UInt32) (ch : KaeCodecChannel) :
    List CodecResult × KaeCodecChannel :=
  let ch := ch.asyncPollingInSession true (compressed.take ch.inflightNum)
  let ch := ch.asyncPollingInSession false (decompressed.take ch.inflightNum)
  let (results, queue) := ch.inflightReqQueue.popResults (toInt32 maxNum.toNat)
  (results, { ch with inflightReqQueue := queue, log := { ch.log with returned := ch.log.returned ++ results } })

end KaeCodecChannel

inductive KaeEvent where
  | compress (args : KaeArgs) (r : KaeStatus)
  | decompress (args : KaeArgs) (r : KaeStatus)
  | poll (compressed decompressed : List KaezipResult) (maxNum : UInt32)

def kaeStep : KaeEvent → Except Empty KaeCodecChannel
  | .compress args r => .ok (ch.compressSGLAsync args r).2
  | .decompress args r => .ok (ch.decompressSGLAsync args r).2
  | .poll compressed decompressed maxNum => .ok (ch.poll compressed decompressed maxNum).2

end Vesal.Kae
