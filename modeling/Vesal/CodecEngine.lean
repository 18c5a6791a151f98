import Vesal.CodecCallback
import Vesal.InFlight
import Vesal.Library.EventRuns
import Vesal.QatHa

/-!
# The codec engine

`QatCodecEngine` of `qat_codec_engine.cc`, without error simulation and metrics. The
environment of a call answers for the driver and the clock; the hardware completes requests oldest
first, and only while it is polled.
-/

namespace Vesal

structure EngineConfig where
  opts : CodecChannelOption
  size : RingSize
  dev : DmaUnit
  ha : HaWindow
  msToDuration : Nat → Nat

structure EngineState extends InFlight FrameMeta RequestCbContext where
  nextRecvReqId : Nat
  callbackCalledTimes : Nat
  isFatal : Bool
  closed : Bool
  codecResults : List CodecResult
  errorTs : List Nat

instance : CallbackContext RequestCbContext where
  owner cb := cb.engine
  reqId cb := cb.reqId
  srcBuf cb := cb.srcQat
  dstBuf cb := cb.dstQat
  cleared cb :=
    { cb with
      engine := false, reqId := 0, srcQat := none, dstQat := none
      srcData := [], dstData := 0, dstLen := 0 }

instance : IORequest CodecRequestArgs where
  src args := args.src
  dst args := args.dst
  ctx args := args.ctx

/-- What ends the process: an access outside an array, a fault of the data path, or a null pointer. -/
inductive EngineFault where
  | srcBlocks
  | sgl (fault : SglFault)
  | callback (fault : CallbackFault)
  | nullPointer
deriving DecidableEq, Repr

variable (cfg : EngineConfig)

def initEngine (pool : PoolState) : EngineState where
  toInFlight := .init cfg.size 1 (cfg.msToDuration cfg.opts.timeoutMs)
    (cfg.msToDuration (cfg.size.maxInQatSize * qatTimeoutMs)) ⟨0, .kNum, 0, 0, .kNum, .kNum⟩
    (fun _ => newRequestCbContext cfg.opts.checksumType) pool
  nextRecvReqId := 1
  callbackCalledTimes := 0
  isFatal := false
  closed := false
  codecResults := []
  errorTs := []

namespace EngineState

variable (args : CodecRequestArgs) (st : EngineState)

def onInFlight
    (f : InFlight FrameMeta RequestCbContext → InFlight FrameMeta RequestCbContext) : EngineState :=
  { st with toInFlight := f st.toInFlight }

def pushResult (r : CodecResult) : EngineState :=
  { st with codecResults := st.codecResults ++ [r] }

def replacementCb (old : RequestCbContext) : RequestCbContext :=
  { newRequestCbContext cfg.opts.checksumType with engine := old.engine }

def interceptInflightReq (cfg : EngineConfig) (dummyCode : StatusCode) (slot : Nat)
    (st : EngineState) : EngineState :=
  (st.onInFlight (·.interceptInflightReq cfg.size (replacementCb cfg) slot)).pushResult
    (failedResult (st.metas slot).info.userCtx dummyCode)

/-- The callback of `timer_manager_`. The clock that `AddTimer` reads is given for each
request. -/
def onTimeout (clock : Nat → Nat) (slot : Nat) (st : EngineState) : EngineState :=
  (interceptInflightReq cfg .kTimeout slot st).onInFlight
    (·.addFreeTimer (clock (st.metas slot).reqId) slot)

def handleTimeout (cfg : EngineConfig) (now : Nat) (clock : Nat → Nat) (st : EngineState) : EngineState :=
  (st.timers.due now).foldl (fun st t => onTimeout cfg clock t.timerArg st)
    (st.onInFlight fun s => { s with timers := s.timers.handleTimeout now })

/-- What the handling of errors meets: the clock at each error, the flag for their number, and whether
`QatHandle::Reinit` finds another unit. -/
structure HaEnv where
  now : Nat → Nat
  triggerErrorNum : Nat
  reinit : Bool

def dropInflightReqsAndGenDummyResults : EngineState :=
  st.timers.clearAndGetUserArg.1.foldl (fun st slot => interceptInflightReq cfg .kDropped slot st)
    (st.onInFlight fun s => { s with timers := s.timers.clearAndGetUserArg.2 })

def clearRetiredQat : EngineState :=
  let st := { st with codecResults := modifyAll st.codecResults .kDropped }
  let st := dropInflightReqsAndGenDummyResults cfg st
  { st with nextRecvReqId := st.nextReqId, callbackCalledTimes := 0, inQatNum := 0 }

/-- `HandleHa` for the `i`-th error of a call. A unit that is left is never polled again. -/
def handleHa (env : HaEnv) (i : Nat) (error : StatusCode) (st : EngineState) :
    Bool × EngineState :=
  match cfg.ha.shouldFallback env.triggerErrorNum (env.now i) error st.errorTs with
  | (false, errorTs) => (false, { st with errorTs := errorTs })
  | (true, errorTs) =>
    let st := clearRetiredQat cfg { st with errorTs := errorTs }
    let st := st.onInFlight fun s => { s with hw := [] }
    if env.reinit then (true, st) else (false, { st with isFatal := true })

def checkSessionOption : Bool :=
  args.compLevel != .kNum &&
    (args.codecAlgorithm == .kLz4 || args.codecAlgorithm == .kDeflate || args.codecAlgorithm == .kZlib)

def qatRingFull : Bool :=
  decide (cfg.size.maxInQatSize ≤ st.inQatNum)

def storeRequest (reqId : Nat) (args : CodecRequestArgs) (m : RequestMeta FrameMeta) :
    RequestMeta FrameMeta :=
  { m.storeMemory args.src args.dst with
    reqId := reqId
    info := { m.info with userCtx := args.ctx, direction := args.direction } }

def storeFormat (m : RequestMeta FrameMeta) : RequestMeta FrameMeta :=
  { m with
    info := { m.info with
      headerSize := (headerFooterSize args.codecAlgorithm).1
      footerSize := (headerFooterSize args.codecAlgorithm).2
      codecAlgo := args.codecAlgorithm
      compLevel := args.compLevel } }

def prepareCommonReqData :
    Except EngineFault (Bool × EngineState) :=
  if vesalMaxSglNum < args.src.length then .error .srcBlocks
  else
    let reqId := st.nextReqId
    let slot := cfg.size.slotOf reqId
    let st := st.onInFlight fun s => s.setMeta slot (storeRequest reqId args (s.metas slot))
    match st.bufs with
    | srcBuf :: dstBuf :: bufs =>
      let st := st.onInFlight fun s => s.setMeta slot (storeFormat args (s.metas slot))
      match fillRequestBuffers cfg.dev args srcBuf dstBuf st.pool with
      | .error fault => .error (.sgl fault)
      | .ok (false, srcBuf, dstBuf, pool) =>
        .ok (false, st.onInFlight fun s => { s with bufs := dstBuf :: srcBuf :: bufs, pool := pool })
      | .ok (true, srcBuf, dstBuf, pool) =>
        let st := st.onInFlight fun s => { s with bufs := bufs, pool := pool }
        .ok (true, st.onInFlight fun s =>
          s.setCb (s.cbPool slot)
            ((s.cbs (s.cbPool slot)).setRequest cfg.opts reqId args srcBuf dstBuf))
    -- at most one buffer is left, which is returned
    | _ => .ok (false, st)

structure SubmitEnv where
  driver : StatusCode
  now : Nat
  ha : HaEnv

def handleSubmitError (env : SubmitEnv) (st : EngineState) : EngineState :=
  if isHaEnabled cfg.opts.haPolicy then (handleHa cfg env.ha 0 env.driver st).2
  else if env.driver = .kChannelError ∨ env.driver = .kHardwareError then { st with isFatal := true }
  else st

def submitAsyncRequest (env : SubmitEnv) (args : CodecRequestArgs)
    (st : EngineState) : Except EngineFault (StatusCode × EngineState) :=
  let slot := cfg.size.slotOf st.nextReqId
  if !checkSessionOption args then .ok (.kInvalidArgument, st)
  else if st.isFatal then .ok (.kPermanentError, st)
  else if qatRingFull cfg st then .ok (.kResourceBusy, st)
  else
    match prepareCommonReqData cfg args st with
    | .error fault => .error fault
    | .ok (false, st) =>
      .ok (.kResourceBusy, st.onInFlight (·.cleanUpReqData cfg.dev (some slot) none))
    | .ok (true, st) =>
      let c := st.cbPool slot
      if env.driver = .kOk then
        .ok (.kOk, st.onInFlight fun s => (s.submit c).tagInFlight env.now slot)
      else
        .ok (env.driver, (handleSubmitError cfg env st).onInFlight
          (·.cleanUpReqData cfg.dev (some slot) (some c)))

structure Completion where
  status : CpaStatus
  results : CpaDcRqResults
  mem : Library.Memory
  scratch : ZlibScratch

/-- `Callback`. The order of the requests is only logged. -/
def callback (cfg : EngineConfig) (ev : Completion) (c : Nat) (st : EngineState) :
    Except EngineFault EngineState :=
  let cb := st.cbs c
  if !cb.engine then .error .nullPointer
  else
    let st := { st with
      callbackCalledTimes := st.callbackCalledTimes + 1
      nextRecvReqId := st.nextRecvReqId + 1
      pool := { st.pool with mem := ev.mem } }
    let slot := cfg.size.slotOf cb.reqId
    let info := (st.metas slot).info
    if !(st.metas slot).valid then .ok (st.onInFlight (·.cleanUpReqData cfg.dev none (some c)))
    else if ev.status ≠ .success ∨ ev.results.status ≠ .ok then
      let st := st.pushResult
        (failedResult info.userCtx (completionStatusCode ev.status ev.results.status))
      .ok (st.onInFlight (·.cleanUpReqData cfg.dev (some slot) (some c)))
    else
      match callbackSuccess cfg.dev cfg.opts info cb ev.results ev.scratch ev.mem with
      | .error fault => .error (.callback fault)
      | .ok (mem, result) =>
        let st := { st.pushResult result with pool := { st.pool with mem := mem } }
        .ok (st.onInFlight (·.cleanUpReqData cfg.dev (some slot) (some c)))

def pollInstance (cfg : EngineConfig) : List Completion → EngineState → Except EngineFault EngineState
  | [], st => .ok st
  | ev :: evs, st =>
    match st.hw with
    | [] => .ok st
    | c :: hw =>
      match callback cfg ev c (st.onInFlight fun s => { s with hw := hw }) with
      | .error fault => .error fault
      | .ok st => pollInstance cfg evs st

/-- What `Poll` meets: the completions and the status of `PollInstance`, the clock at the two calls of
`HandleTimeout` and at each `AddTimer`. -/
structure PollEnv where
  completions : List Completion
  status : CpaStatus
  now : Nat
  clock : Nat → Nat
  freeNow : Nat
  ha : HaEnv

def isBadPoll (pollR : StatusCode) : Bool := pollR != .kOk && pollR != .kShouldRetry

/-- `Poll` up to the results that it takes out: the hardware, the timers, the counters. -/
def pollHardware (env : PollEnv) (st : EngineState) :
    Except EngineFault EngineState :=
  match pollInstance cfg env.completions { st with callbackCalledTimes := 0 } with
  | .error fault => .error fault
  | .ok st =>
    let st := handleTimeout cfg env.now env.clock st
    let st := st.onInFlight (·.handleFreeTimeout env.freeNow)
    .ok { st with inQatNum := st.inQatNum - st.callbackCalledTimes }

def popBufferedResults (maxNum : Nat) (st : EngineState) : List CodecResult × EngineState :=
  (st.codecResults.take maxNum, { st with codecResults := st.codecResults.drop maxNum })

def handleHaResults (cfg : EngineConfig) (env : HaEnv) :
    List CodecResult → Nat → EngineState → Bool × EngineState
  | [], _, st => (false, st)
  | r :: rs, i, st =>
    if r.status = .kOk then handleHaResults cfg env rs (i + 1) st
    else
      let (switched, st) := handleHa cfg env i r.status st
      if switched || st.isFatal then (true, st) else handleHaResults cfg env rs (i + 1) st

def pollHa (env : PollEnv) (results : List CodecResult) (st : EngineState) :
    Bool × EngineState :=
  let pollR := cpaStatusToVesalStatusCode env.status
  if isBadPoll pollR then
    let (switched, st) := handleHa cfg env.ha 0 pollR st
    (switched || st.isFatal, st)
  else handleHaResults cfg env.ha results 0 st

def poll (cfg : EngineConfig) (env : PollEnv) (maxNum : Nat) (st : EngineState) :
    Except EngineFault (Int × List CodecResult × EngineState) :=
  if st.isFatal then
    let (results, st) := popBufferedResults maxNum st
    .ok (if results.length > 0 then (results.length : Int) else -1, results, st)
  else
    match pollHardware cfg env st with
    | .error fault => .error fault
    | .ok st =>
      let (results, st) := popBufferedResults maxNum st
      if !isHaEnabled cfg.opts.haPolicy then
        if results.length = 0 ∧ isBadPoll (cpaStatusToVesalStatusCode env.status) then
          .ok (-1, results, { st with isFatal := true })
        else .ok (results.length, results, st)
      else .ok (results.length, results, (pollHa cfg env results st).2)

/-- What `QatHandle::Uninit` meets: the completions of each poll while a session refuses to close, and
what it returns. -/
structure CloseEnv where
  polls : List (List Completion)
  result : StatusCode

def close (env : CloseEnv) (st : EngineState) :
    Except EngineFault (StatusCode × EngineState) :=
  if st.closed then .ok (.kOk, st)
  else
    match env.polls.foldlM (fun st evs => pollInstance cfg evs st) st with
    | .error fault => .error fault
    | .ok st =>
      if env.result ≠ .kOk then .ok (env.result, st)
      else
        let st := st.onInFlight fun s =>
          { s with timers := { s.timers with timers := [] }
                   freeTimers := { s.freeTimers with timers := [] } }
        let st := { st with codecResults := [] }
        let st := st.onInFlight fun s =>
          (s.discardedCbCtxs ++ (List.range cfg.size.slotNum).map s.cbPool).foldl
            (fun s c => s.resetCb cfg.dev c) s
        .ok (.kOk, { st with discardedCbCtxs := [], bufs := [], closed := true })

end EngineState

structure CodecRun where
  engine : EngineState
  accepted : List CodecRequestArgs
  returned : List CodecResult

inductive CodecEvent where
  | submit (env : EngineState.SubmitEnv) (args : CodecRequestArgs)
  | poll (env : EngineState.PollEnv) (maxNum : Nat)
  | close (env : EngineState.CloseEnv)
  | memory (pool : PoolState)

def initCodecRun (pool : PoolState) : CodecRun := ⟨initEngine cfg pool, [], []⟩

/-- A call on a closed engine is one on null pointers, apart from `Close`. -/
def codecStep (run : CodecRun) : CodecEvent → Except EngineFault CodecRun
  | .submit env args =>
    if run.engine.closed then .error .nullPointer
    else
      match EngineState.submitAsyncRequest cfg env args run.engine with
      | .error fault => .error fault
      | .ok (status, st) =>
        .ok { run with
          engine := st
          accepted := if status = .kOk then run.accepted ++ [args] else run.accepted }
  | .poll env maxNum =>
    if run.engine.closed then .error .nullPointer
    else
      match EngineState.poll cfg env maxNum run.engine with
      | .error fault => .error fault
      | .ok (_, results, st) => .ok { run with engine := st, returned := run.returned ++ results }
  | .close env =>
    match EngineState.close cfg env run.engine with
    | .error fault => .error fault
    | .ok (_, st) => .ok { run with engine := st }
  | .memory pool => .ok { run with engine := run.engine.onInFlight fun s => { s with pool := pool } }

def runCodec (run : CodecRun) (events : List CodecEvent) :
    Except EngineFault CodecRun :=
  Library.runEvents (codecStep cfg) run events

def CodecRuns (allowed : CodecRun → CodecEvent → Prop) : CodecRun → CodecRun → Prop :=
  Library.Runs (codecStep cfg) allowed

end Vesal
