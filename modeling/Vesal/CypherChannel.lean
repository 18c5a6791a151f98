import Vesal.Codec
import Vesal.InFlight
import Vesal.Library.EventRuns
import Vesal.ReqRingQueue

/-!
# The cypher channel

`QatCypherChannel` of `qat_cypher_channel.cc`, without metrics. The environment of
a call and the hardware are as for the codec engine.
-/

namespace Vesal

open Library

inductive CypherAlgorithm where
  | kAES_XTS | kSHA256 | kNum
deriving DecidableEq, Repr

inductive CypherOp where
  | kEncrypt | kDecrypt | kHash
deriving DecidableEq, Repr

structure CypherResult where
  status : StatusCode
  ctx : Nat
deriving DecidableEq, Repr

/-- `CypherReqArgs`. A session is named by its place in `sessions_`; `none` is the null
pointer. -/
structure CypherReqArgs where
  src : IOVector
  dst : IOBlock
  op : CypherOp
  aesXtsTweak : Nat
  ctx : Nat
  session : Option Nat
deriving DecidableEq, Repr

instance : IORequest CypherReqArgs where
  src args := args.src
  dst args := args.dst
  ctx args := args.ctx

def isHash : CypherAlgorithm → Bool
  | .kAES_XTS => false
  | .kSHA256 | .kNum => true

/-- `CypherSessionPair`. Its two sessions are there until it is closed. -/
structure CypherSessionPair where
  algorithm : CypherAlgorithm
  opened : Bool
deriving DecidableEq, Repr

def sha256DstLen : Nat := 32

def kIvSize : Nat := 16

/-- The sum of the sizes of the blocks, as `unsigned int` and `Cpa32U` have it. -/
def totLen (src : IOVector) : Nat := totalSize src % 2 ^ 32

def validateArgs (args : CypherReqArgs) : CypherAlgorithm → Bool
  | .kAES_XTS => !decide (args.dst.size < totLen args.src)
  | .kSHA256 => !decide (args.dst.size < sha256DstLen)
  | .kNum => true

structure CpaCySymOpData where
  pIv : Nat
  messageLenToCipherInBytes : Nat
  messageLenToHashInBytes : Nat
  pDigestResult : Nat
deriving DecidableEq, Repr

structure CypherCbContext where
  channel : Bool
  reqId : Nat
  op : CpaCySymOpData
  srcBuf : Option QatBuf
  dstBuf : Option QatBuf

instance : CallbackContext CypherCbContext where
  owner cb := cb.channel
  reqId cb := cb.reqId
  srcBuf cb := cb.srcBuf
  dstBuf cb := cb.dstBuf
  cleared cb := { cb with channel := false, reqId := 0, srcBuf := none, dstBuf := none }

/-- A fresh context. Its constructor does not set `pIv`. -/
def newCypherCbContext (pIv : Nat) : CypherCbContext := ⟨false, 0, ⟨pIv, 0, 0, 0⟩, none, none⟩

structure CypherMeta where
  ringQueueId : Int
  userCtx : Nat
  op : CypherOp
  consumedLen : Nat
deriving DecidableEq, Repr

/-- `Cypher` has the number of requests as an `int`, and the multiplier is a `uint32_t`. -/
structure CypherConfig where
  size : RingSize
  size_lt : size.maxInQatSize < 2 ^ 31
  bufferMultiplier : Nat
  queue_pos : 0 < bufferMultiplier
  queue_lt : bufferMultiplier < 2 ^ 32
  dev : DmaUnit
  algorithm : CypherAlgorithm
  userCb : Bool
  timeoutMs : Nat
  msToDuration : Nat → Nat

variable (cfg : CypherConfig)

def CypherConfig.queueSize : Nat :=
  nextPowerOfTwo (cfg.size.maxInQatSize * cfg.bufferMultiplier)

/-- The capacity of `req_ring_queue_` is an `int`, as which the queue keeps it. -/
def CypherConfig.QueueFits : Prop := cfg.queueSize < 2 ^ 31

instance (cfg : CypherConfig) : Decidable cfg.QueueFits := inferInstanceAs (Decidable (_ < _))

/-- The bytes that `Init` allocates for the IVs, computed as an `int`. -/
def CypherConfig.ivBufSize : Nat := (toInt32 (kIvSize * cfg.size.slotNum) % 2 ^ 64).toNat

def CypherConfig.IvsFit : Prop := kIvSize * cfg.size.slotNum < 2 ^ 31

instance (cfg : CypherConfig) : Decidable cfg.IvsFit := inferInstanceAs (Decidable (_ < _))

/-- `next_req_id_` is a `uint32_t`, of which only the slot is ever used. -/
structure ChannelState extends InFlight CypherMeta CypherCbContext where
  sessions : List CypherSessionPair
  reqRingQueue : InflightReqRingQueue CypherResult
  ivBuf : Nat
  closed : Bool

/-- What ends the process: an access outside an array, a fault of the data path, a null pointer, or a
queue of size zero. -/
inductive ChannelFault where
  | srcBlocks
  | sgl (fault : SglFault)
  | nullPointer
  | divisionByZero
deriving DecidableEq, Repr

/-- The channel after a successful `Init`, with the IVs at `ivBuf`. The offset of an IV is an `int`,
which does not overflow if all of them fit. -/
def initChannel (ivBuf : Nat) (pool : PoolState) : ChannelState where
  toInFlight := .init cfg.size 0 (cfg.msToDuration cfg.timeoutMs)
    (cfg.msToDuration (cfg.size.maxInQatSize * qatTimeoutMs)) ⟨-1, 0, .kEncrypt, 0⟩
    (fun i => newCypherCbContext (ivBuf + i * kIvSize)) pool
  sessions := [⟨cfg.algorithm, true⟩]
  reqRingQueue := .new cfg.queueSize ⟨.kUnknown, 0⟩
  ivBuf := ivBuf
  closed := false

namespace ChannelState

def onInFlight (st : ChannelState)
    (f : InFlight CypherMeta CypherCbContext → InFlight CypherMeta CypherCbContext) : ChannelState :=
  { st with toInFlight := f st.toInFlight }

def pushResult (st : ChannelState) (r : CypherResult) (id : Int) : ChannelState :=
  { st with reqRingQueue := st.reqRingQueue.pushResult r id }

/-- Replaces a context that the hardware may still use. `pIv` is what the new memory held before. -/
def replacementCb (pIv : Nat) (old : CypherCbContext) : CypherCbContext :=
  { newCypherCbContext pIv with channel := old.channel }

def interceptInflightReq (cfg : CypherConfig) (pIv : Nat) (dummyCode : StatusCode) (slot : Nat)
    (st : ChannelState) : ChannelState :=
  (st.onInFlight (·.interceptInflightReq cfg.size (replacementCb pIv) slot)).pushResult
    ⟨dummyCode, (st.metas slot).info.userCtx⟩ (st.metas slot).info.ringQueueId

/-- What the callback of `timer_manager_` meets: the clock at `AddTimer`, and the memory of
the new context. -/
structure TimeoutEnv where
  clock : Nat
  pIv : Nat

def onTimeout (env : TimeoutEnv) (slot : Nat) (st : ChannelState) : ChannelState :=
  (interceptInflightReq cfg env.pIv .kTimeout slot st).onInFlight (·.addFreeTimer env.clock slot)

/-- `HandleTimeout` of `timer_manager_`. What it meets is given for each slot. -/
def handleTimeout (cfg : CypherConfig) (now : Nat) (env : Nat → TimeoutEnv) (st : ChannelState) :
    ChannelState :=
  (st.timers.due now).foldl (fun st t => onTimeout cfg (env t.timerArg) t.timerArg st)
    (st.onInFlight fun s => { s with timers := s.timers.handleTimeout now })

def isChannelFull (st : ChannelState) : Bool := st.inQatNum == cfg.size.maxInQatSize

/-- The session of a request. A session that is not in the list is no pointer to a session. -/
def sessionOf (args : CypherReqArgs) (st : ChannelState) : Option CypherSessionPair :=
  match args.session with
  | none => st.sessions.head?
  | some i => st.sessions[i]?

def fillCypherBuffers (dev : DmaUnit) (args : CypherReqArgs) (srcBuf dstBuf : QatBuf)
    (pool : PoolState) : Except SglFault (Bool × QatBuf × QatBuf × PoolState) := do
  let caller := args.src.extents ++ [args.dst.extent]
  let (fillSrcR, srcBuf, pool) ← fillSrc dev args.src 0 0 srcBuf pool
  let (fillDstR, dstBuf, pool) := fillDst dev caller args.dst 0 0 dstBuf pool
  if !fillSrcR || !fillDstR then
    let (srcBuf, pool) := if fillSrcR then freeDataIfNecessary dev srcBuf pool else (srcBuf, pool)
    let (dstBuf, pool) := if fillDstR then freeDataIfNecessary dev dstBuf pool else (dstBuf, pool)
    return (false, srcBuf, dstBuf, pool)
  else return (true, srcBuf, dstBuf, pool)

/-- `NewCypherCallbackCtx`: the context, and the memory with its IV. There is no length for other
algorithms, and no context in a closed session. -/
def newCypherCallbackCtx (p : CypherSessionPair) (reqId : Nat) (args : CypherReqArgs)
    (srcBuf dstBuf : QatBuf) (cb : CypherCbContext) (mem : Memory) :
    Except ChannelFault (CypherCbContext × Memory) :=
  let cb := { cb with reqId := reqId, channel := true, srcBuf := some srcBuf, dstBuf := some dstBuf }
  if !p.opened then .error .nullPointer
  else
    match p.algorithm with
    | .kAES_XTS =>
      .ok ({ cb with op := { cb.op with messageLenToCipherInBytes := totLen args.src } },
        writeBytes mem cb.op.pIv (readBytes mem args.aesXtsTweak kIvSize))
    | .kSHA256 =>
      .ok ({ cb with op := { cb.op with
        messageLenToHashInBytes := totLen args.src, pDigestResult := (dstBuf.pBuffers 0).pData } }, mem)
    | .kNum => .error .nullPointer

def storeRequest (reqId : Nat) (ringQueueId : Int) (consumedLen : Nat) (args : CypherReqArgs)
    (m : RequestMeta CypherMeta) : RequestMeta CypherMeta :=
  { m.storeMemory args.src args.dst with
    reqId := reqId
    info := ⟨ringQueueId, args.ctx, args.op, consumedLen⟩ }

structure SubmitEnv where
  driver : CpaStatus
  now : Nat

def acceptRequest (now slot c consumedLen : Nat) (args : CypherReqArgs) (st : ChannelState) : ChannelState :=
  let (ringQueueId, queue) := st.reqRingQueue.newReq
  { st with
    toInFlight := ((st.toInFlight.setMeta slot
      (storeRequest st.nextReqId ringQueueId consumedLen args (st.metas slot))).submit c).tagInFlight now slot
    reqRingQueue := queue }

def submitAsync (env : SubmitEnv) (args : CypherReqArgs) (st : ChannelState) :
    Except ChannelFault (StatusCode × ChannelState) :=
  let slot := cfg.size.slotOf st.nextReqId
  if isChannelFull cfg st || st.reqRingQueue.isFull then .ok (.kResourceBusy, st)
  else
    match sessionOf args st with
    | none => .error .nullPointer
    | some p =>
      if !validateArgs args p.algorithm then .ok (.kInvalidArgument, st)
      else
        match st.bufs with
        | srcBuf :: dstBuf :: bufs =>
          match fillCypherBuffers cfg.dev args srcBuf dstBuf st.pool with
          | .error fault => .error (.sgl fault)
          | .ok (false, srcBuf, dstBuf, pool) =>
            .ok (.kResourceBusy, st.onInFlight fun s =>
              { s with bufs := dstBuf :: srcBuf :: bufs, pool := pool })
          | .ok (true, srcBuf, dstBuf, pool) =>
            let c := st.cbPool slot
            match newCypherCallbackCtx p st.nextReqId args srcBuf dstBuf (st.cbs c) pool.mem with
            | .error fault => .error fault
            | .ok (cb, mem) =>
              let st := st.onInFlight fun s =>
                { s.setCb c cb with bufs := bufs, pool := { pool with mem := mem } }
              let r := cpaStatusToVesalStatusCode env.driver
              if r ≠ .kOk then .ok (r, st.onInFlight (·.cleanUpReqData cfg.dev none (some c)))
              else if vesalMaxSglNum < args.src.length then .error .srcBlocks
              else
                let consumedLen := if isHash p.algorithm then cb.op.messageLenToHashInBytes
                  else cb.op.messageLenToCipherInBytes
                .ok (r, acceptRequest env.now slot c consumedLen args st)
        -- at most one buffer is left, which is returned
        | _ => .ok (.kResourceBusy, st)

structure Completion where
  status : CpaStatus
  mem : Memory

def cyCallback (ev : Completion) (c : Nat) (st : ChannelState) :
    Except ChannelFault ChannelState :=
  let cb := st.cbs c
  if !cb.channel then .error .nullPointer
  else
    let st := st.onInFlight fun s =>
      { s with inQatNum := s.inQatNum - 1, pool := { s.pool with mem := ev.mem } }
    let slot := cfg.size.slotOf cb.reqId
    let info := (st.metas slot).info
    if !(st.metas slot).valid then .ok (st.onInFlight (·.cleanUpReqData cfg.dev none (some c)))
    else
      match cb.dstBuf with
      | none => .error .nullPointer
      | some dstBuf =>
        let mem := decompCopyBackIfNecessary cfg.dev dstBuf dstBuf.dstUsrDataLen ev.mem
        let st := st.onInFlight fun s => { s with pool := { s.pool with mem := mem } }
        let st := st.pushResult ⟨cpaStatusToVesalStatusCode ev.status, info.userCtx⟩ info.ringQueueId
        .ok (st.onInFlight (·.cleanUpReqData cfg.dev (some slot) (some c)))

def cyPollInstance (cfg : CypherConfig) : List Completion → ChannelState → Except ChannelFault ChannelState
  | [], st => .ok st
  | ev :: evs, st =>
    match st.hw with
    | [] => .ok st
    | c :: hw =>
      match cyCallback cfg ev c (st.onInFlight fun s => { s with hw := hw }) with
      | .error fault => .error fault
      | .ok st => cyPollInstance cfg evs st

/-- What `Poll` meets: the completions and the status of the driver, the clock at the two calls of
`HandleTimeout`, and what is in the array of the caller. -/
structure PollEnv where
  completions : List Completion
  status : CpaStatus
  now : Nat
  timeouts : Nat → TimeoutEnv
  freeNow : Nat
  array : Nat → CypherResult

/-- `Poll`: the number returned, the results put into the array, and those passed to `user_cb`.
`max_num` is an `unsigned int` and `PopResults` takes an `int`. -/
def poll (cfg : CypherConfig) (env : PollEnv) (maxNum : Nat) (st : ChannelState) :
    Except ChannelFault (Int × List CypherResult × List CypherResult × ChannelState) :=
  match cyPollInstance cfg env.completions st with
  | .error fault => .error fault
  | .ok st =>
    if env.status ≠ .success ∧ env.status ≠ .retry then
      .ok (-1, [], if cfg.userCb then (List.range maxNum).map env.array else [], st)
    else
      let st := handleTimeout cfg env.now env.timeouts st
      let st := st.onInFlight (·.handleFreeTimeout env.freeNow)
      if st.reqRingQueue.size = 0 then .error .divisionByZero
      else
        let (results, queue) := st.reqRingQueue.popResults (Int.bmod maxNum (2 ^ 32))
        .ok (results.length, results, if cfg.userCb then results else [], { st with reqRingQueue := queue })

/-- What `UninitSession` meets: the completions of each poll while a session refuses to close, and
what it returns. -/
structure UninitEnv where
  polls : List (List Completion)
  result : StatusCode

def addSession (algorithm : CypherAlgorithm) (st : ChannelState) : ChannelState :=
  { st with sessions := st.sessions ++ [⟨algorithm, true⟩] }

/-- `RemoveSession`. A session that was removed stays in the list. -/
def removeSession (env : UninitEnv) (i : Nat) (st : ChannelState) :
    Except ChannelFault ChannelState :=
  match env.polls.foldlM (fun st evs => cyPollInstance cfg evs st) st with
  | .error fault => .error fault
  | .ok st =>
    if env.result ≠ .kOk then .ok st
    else .ok { st with sessions := st.sessions.modify i fun p => { p with opened := false } }

/-- `Close`. When it fails, the first `closed` sessions are closed already. -/
def close (env : UninitEnv) (closed : Nat) (st : ChannelState) :
    Except ChannelFault (StatusCode × ChannelState) :=
  if st.closed then .ok (.kOk, st)
  else
    match env.polls.foldlM (fun st evs => cyPollInstance cfg evs st) st with
    | .error fault => .error fault
    | .ok st =>
      let uninit := List.map fun p : CypherSessionPair => { p with opened := false }
      if env.result ≠ .kOk then
        .ok (env.result, { st with sessions := uninit (st.sessions.take closed) ++ st.sessions.drop closed })
      else
        let st := st.onInFlight fun s =>
          { s with timers := { s.timers with timers := [] }
                   freeTimers := { s.freeTimers with timers := [] } }
        let st := st.onInFlight fun s =>
          (s.discardedCbCtxs ++ (List.range cfg.size.slotNum).map s.cbPool).foldl
            (fun s c => s.resetCb cfg.dev c) s
        .ok (.kOk, { st with
          sessions := uninit st.sessions
          reqRingQueue := .new cfg.queueSize ⟨.kUnknown, 0⟩
          discardedCbCtxs := []
          bufs := []
          pool := st.pool.deallocate st.ivBuf
          closed := true })

end ChannelState

/-- The channel with what its user has seen of it; `notified` are the calls of `user_cb`. -/
structure CypherRun where
  channel : ChannelState
  accepted : List CypherReqArgs
  returned : List CypherResult
  notified : List CypherResult

/-- A call of the channel, or a change of the memory and the pool by others. A session that is added is
one that the driver could make. -/
inductive CypherEvent where
  | submit (env : ChannelState.SubmitEnv) (args : CypherReqArgs)
  | poll (env : ChannelState.PollEnv) (maxNum : Nat)
  | addSession (algorithm : CypherAlgorithm)
  | removeSession (env : ChannelState.UninitEnv) (i : Nat)
  | close (env : ChannelState.UninitEnv) (closed : Nat)
  | memory (pool : PoolState)

def initCypherRun (ivBuf : Nat) (pool : PoolState) : CypherRun :=
  ⟨initChannel cfg ivBuf pool, [], [], []⟩

/-- A call on a closed channel is one on null pointers, apart from `Close`. -/
def cypherStep (run : CypherRun) : CypherEvent → Except ChannelFault CypherRun
  | .submit env args =>
    if run.channel.closed then .error .nullPointer
    else
      match ChannelState.submitAsync cfg env args run.channel with
      | .error fault => .error fault
      | .ok (status, st) =>
        .ok { run with
          channel := st
          accepted := if status = .kOk then run.accepted ++ [args] else run.accepted }
  | .poll env maxNum =>
    if run.channel.closed then .error .nullPointer
    else
      match ChannelState.poll cfg env maxNum run.channel with
      | .error fault => .error fault
      | .ok (_, results, called, st) =>
        .ok { run with
          channel := st, returned := run.returned ++ results, notified := run.notified ++ called }
  | .addSession algorithm =>
    if run.channel.closed then .error .nullPointer
    else .ok { run with channel := run.channel.addSession algorithm }
  | .removeSession env i =>
    if run.channel.closed then .error .nullPointer
    else
      match ChannelState.removeSession cfg env i run.channel with
      | .error fault => .error fault
      | .ok st => .ok { run with channel := st }
  | .close env closed =>
    match ChannelState.close cfg env closed run.channel with
    | .error fault => .error fault
    | .ok (_, st) => .ok { run with channel := st }
  | .memory pool => .ok { run with channel := run.channel.onInFlight fun s => { s with pool := pool } }

def runCypher (run : CypherRun) (events : List CypherEvent) :
    Except ChannelFault CypherRun :=
  runEvents (cypherStep cfg) run events

def CypherRuns (allowed : CypherRun → CypherEvent → Prop) : CypherRun → CypherRun → Prop :=
  Runs (cypherStep cfg) allowed

end Vesal
