import Vesal.Checksum
import Vesal.Codec
import Vesal.TimerManager

/-!
# Data flow channels

`DataFlowChannelImpl` of `data_flow_channel_impl.cc` over any engine, and the software engine of
`data_flow_sw_engine.cc`. The preallocated request objects are named by their numbers, a
`user_ctx` is the number of an address. What only feeds the metrics is left out.
-/

namespace Vesal

open Library Function

abbrev kMaxSubmittedBatchSize : Nat := 128
abbrev kMaxTotalLength : Nat := 128 * 1024 * 1024
abbrev kMaxSrcSegmentNum : Nat := 128
abbrev kMaxInternalBatchSize : Nat := 1024
abbrev kIoDepthMaximum : Nat := 128

inductive DataFlowPollOrderType where
  | kOrdered
  | kUnordered
  | kNum
deriving DecidableEq, Repr

structure DataFlowMoveOperation where
  src : List Nat
  srcLen : List Nat
  dst : Nat
  seed : BitVec 64
  enableCrc : Bool
deriving DecidableEq, Repr

structure DataFlowCrcOperation where
  src : Nat
  len : Nat
  seed : BitVec 64
deriving DecidableEq, Repr

inductive DataFlowOperations where
  | move (ops : List DataFlowMoveOperation)
  | crc (ops : List DataFlowCrcOperation)
deriving DecidableEq, Repr

def DataFlowOperations.num : DataFlowOperations → Nat
  | .move ops => ops.length
  | .crc ops => ops.length

structure DataFlowResult where
  status : StatusCode
  crcOutput : List (BitVec 64)
  ctx : Nat
deriving DecidableEq, Repr

structure DataFlowRequest where
  num : Nat
  completed : Bool
  expired : Bool
  timerCtx : Option Nat
  userCtx : Nat
deriving DecidableEq, Repr

def DataFlowRequest.build (num userCtx : Nat) : DataFlowRequest := ⟨num, false, false, none, userCtx⟩

/-- An engine whose state, with the `engine_ctx` of every request, is of type `E`.
`CheckCompletion` gives the new value of `completed`, the result and the state after it. -/
structure DataFlowEngine (E : Type) where
  submit : E → Nat → DataFlowRequest → DataFlowOperations → StatusCode × E
  checkCompletion : E → Nat → DataFlowRequest → DataFlowResult → Bool × DataFlowResult × E
  ctx_of_completed : ∀ e obj req result,
    (checkCompletion e obj req result).1 = true → (checkCompletion e obj req result).2.1.ctx = req.userCtx

/-- A call of `CheckCompletion`: the state of the engine and the arguments, and the answer. -/
structure CompletionCheck (E : Type) where
  engine : E
  obj : Nat
  request : DataFlowRequest
  before : DataFlowResult
  completed : Bool
  after : DataFlowResult

/-- `checks` is no member: it logs the calls of `CheckCompletion` by the last `Poll`. -/
structure DataFlowChannelImpl (E : Type) where
  orderType : DataFlowPollOrderType
  queue : List Nat
  expiredQueue : List Nat
  cachedResource : List Nat
  request : Nat → DataFlowRequest
  timerManager : TimerManager Nat
  engine : E
  checks : List (CompletionCheck E)

variable {E : Type} (eng : DataFlowEngine E)

namespace DataFlowChannelImpl

def init (orderType : DataFlowPollOrderType) (timeoutTs : Nat) (engine : E) : DataFlowChannelImpl E where
  orderType := orderType
  queue := []
  expiredQueue := []
  cachedResource := List.range kIoDepthMaximum
  request := fun _ => .build 0 0
  timerManager := .new timeoutTs
  engine := engine
  checks := []

def totalLength : List Nat → Nat → Option Nat
  | [], total => some total
  | len :: lens, total => if len = 0 then none else totalLength lens ((total + len) % 2 ^ 64)

/-- The loop over the operations, with `segment_num`; none where one is refused. The lists of those
before it have at most 128 elements, so that `segment_num` does not wrap. -/
def segmentNum : List DataFlowMoveOperation → Nat → Option Nat
  | [], segments => some segments
  | op :: ops, segments =>
    if op.src.length = 0 ∨ op.src.length ≠ op.srcLen.length ∨ op.src.length > kMaxSrcSegmentNum then none
    else
      match totalLength op.srcLen 0 with
      | none => none
      | some total => if total > kMaxTotalLength then none else segmentNum ops (segments + op.src.length)

variable (ch : DataFlowChannelImpl E)

def submitRequest (ops : DataFlowOperations)
    (userCtx now : Nat) : StatusCode × DataFlowChannelImpl E :=
  match ch.cachedResource with
  | [] => (.kResourceBusy, ch)
  | obj :: cached =>
    let req := DataFlowRequest.build ops.num userCtx
    let (result, engine) := eng.submit ch.engine obj req ops
    if result = .kOk then
      let (timer, timerManager) := ch.timerManager.addTimer now obj
      (result,
        { ch with
          queue := ch.queue ++ [obj]
          cachedResource := cached
          request := update ch.request obj { req with timerCtx := some timer }
          timerManager := timerManager
          engine := engine })
    else
      (result,
        { ch with
          cachedResource := cached ++ [obj]
          request := update ch.request obj req
          engine := engine })

def submitMove (ops : List DataFlowMoveOperation)
    (userCtx now : Nat) : StatusCode × DataFlowChannelImpl E :=
  if ops.length > kMaxSubmittedBatchSize then (.kInvalidArgument, ch)
  else
    match segmentNum ops 0 with
    | none => (.kInvalidArgument, ch)
    | some segments =>
      if 1 + segments + 1 + ops.length > kMaxInternalBatchSize then (.kInvalidArgument, ch)
      else submitRequest eng ch (.move ops) userCtx now

def submitCrc (ops : List DataFlowCrcOperation)
    (userCtx now : Nat) : StatusCode × DataFlowChannelImpl E :=
  if ops.length > kMaxSubmittedBatchSize then (.kInvalidArgument, ch)
  else if 1 + ops.length > kMaxInternalBatchSize then (.kInvalidArgument, ch)
  else if ops.any (fun op => op.len > kMaxTotalLength ∨ op.len = 0) then (.kInvalidArgument, ch)
  else submitRequest eng ch (.crc ops) userCtx now

def submit (ops : DataFlowOperations)
    (userCtx now : Nat) : StatusCode × DataFlowChannelImpl E :=
  match ops with
  | .move ops => submitMove eng ch ops userCtx now
  | .crc ops => submitCrc eng ch ops userCtx now

/-- An entry of `results` that `Poll` fills: the object of the request, what the entry was before
and is after, and whether the request had expired. -/
structure Filled where
  obj : Nat
  before : DataFlowResult
  after : DataFlowResult
  expired : Bool
deriving DecidableEq, Repr

def check (obj : Nat) (result : DataFlowResult) :
    Bool × DataFlowResult × DataFlowChannelImpl E :=
  let req := ch.request obj
  let (completed, after, engine) := eng.checkCompletion ch.engine obj req result
  (completed, after,
    { ch with
      request := update ch.request obj { req with completed := completed }
      engine := engine
      checks := ch.checks ++ [⟨ch.engine, obj, req, result, completed, after⟩] })

def removeTimer (ch : DataFlowChannelImpl E) (obj : Nat) : TimerManager Nat :=
  match (ch.request obj).timerCtx with
  | some timer => ch.timerManager.removeTimer timer
  | none => ch.timerManager

/-- The loop over `queue_`, with the entries of `results` from `result_num` to `max_num`: what remains
of the queue, the channel, and the entries filled. -/
def pollLoop (eng : DataFlowEngine E) : List Nat → List DataFlowResult → DataFlowChannelImpl E →
    List Nat × DataFlowChannelImpl E × List Filled
  | [], _, ch => ([], ch, [])
  | obj :: queue, [], ch => (obj :: queue, ch, [])
  | obj :: queue, entry :: results, ch =>
    if (ch.request obj).expired then
      let after := { entry with status := .kTimeout, ctx := (ch.request obj).userCtx }
      let (queue, ch, filled) :=
        pollLoop eng queue results { ch with expiredQueue := ch.expiredQueue ++ [obj] }
      (queue, ch, ⟨obj, entry, after, true⟩ :: filled)
    else
      match check eng ch obj entry with
      | (true, after, ch) =>
        let (queue, ch, filled) :=
          pollLoop eng queue results
            { ch with timerManager := ch.removeTimer obj, cachedResource := ch.cachedResource ++ [obj] }
        (queue, ch, ⟨obj, entry, after, false⟩ :: filled)
      | (false, entry, ch) =>
        if ch.orderType = .kOrdered then (obj :: queue, ch, [])
        else
          let (queue, ch, filled) := pollLoop eng queue (entry :: results) ch
          (obj :: queue, ch, filled)

def expire (request : Nat → DataFlowRequest) (obj : Nat) : Nat → DataFlowRequest :=
  update request obj { request obj with expired := true }

/-- `discarded_result` as it is declared; its members are not read. -/
def discardedResult : DataFlowResult := ⟨.kOk, [], 0⟩

/-- The loop over `expired_queue_`: what remains of it, and the channel. -/
def expiredLoop (eng : DataFlowEngine E) : List Nat → DataFlowChannelImpl E → List Nat × DataFlowChannelImpl E
  | [], ch => ([], ch)
  | obj :: queue, ch =>
    match check eng ch obj discardedResult with
    | (true, _, ch) => expiredLoop eng queue { ch with cachedResource := ch.cachedResource ++ [obj] }
    | (false, _, ch) =>
      let (queue, ch) := expiredLoop eng queue ch
      (obj :: queue, ch)

/-- `Poll` with the `max_num` entries of `results`: those that it fills, and the channel. -/
def poll (results : List DataFlowResult) (now : Nat) :
    List Filled × DataFlowChannelImpl E :=
  let (queue, ch, filled) := pollLoop eng ch.queue results { ch with checks := [] }
  let ch :=
    { ch with
      queue := queue
      request := ((ch.timerManager.due now).map TimeoutContext.timerArg).foldl expire ch.request
      timerManager := ch.timerManager.handleTimeout now }
  let (expiredQueue, ch) := expiredLoop eng ch.expiredQueue ch
  (filled, { ch with expiredQueue := expiredQueue })

end DataFlowChannelImpl

def memmove (mem : Memory) (dst src len : Nat) : Memory := writeBytes mem dst (readBytes mem src len)

structure SwState where
  mem : Memory
  swCtx : Nat → Nat → BitVec 64

namespace SwEngine

def moveSegments (dst : Nat) : List (Nat × Nat) → Nat → Memory → Nat × Memory
  | [], offset, mem => (offset, mem)
  | (src, len) :: segments, offset, mem => moveSegments dst segments (offset + len) (memmove mem (dst + offset) src len)

/-- `ComputeCRC32` with the seed and the result converted from and to 64 bits. -/
def crcOf (seed : BitVec 64) (mem : Memory) (addr len : Nat) : BitVec 64 :=
  (computeCRC32 (seed.setWidth 32) (readBytes mem addr len)).setWidth 64

def submitMoves : List DataFlowMoveOperation → Nat → (Nat → BitVec 64) → Memory → (Nat → BitVec 64) × Memory
  | [], _, swCtx, mem => (swCtx, mem)
  | op :: ops, i, swCtx, mem =>
    let (offset, mem) := moveSegments op.dst (op.src.zip op.srcLen) 0 mem
    let crc := if op.enableCrc then crcOf op.seed mem op.dst offset else 0
    submitMoves ops (i + 1) (update swCtx i crc) mem

def submitCrcs (mem : Memory) : List DataFlowCrcOperation → Nat → (Nat → BitVec 64) → (Nat → BitVec 64)
  | [], _, swCtx => swCtx
  | op :: ops, i, swCtx => submitCrcs mem ops (i + 1) (update swCtx i (crcOf op.seed mem op.src op.len))

def submit (e : SwState) (obj : Nat) (_req : DataFlowRequest) : DataFlowOperations → StatusCode × SwState
  | .move ops =>
    let (swCtx, mem) := submitMoves ops 0 (e.swCtx obj) e.mem
    (.kOk, ⟨mem, update e.swCtx obj swCtx⟩)
  | .crc ops => (.kOk, ⟨e.mem, update e.swCtx obj (submitCrcs e.mem ops 0 (e.swCtx obj))⟩)

def checkCompletion (e : SwState) (obj : Nat) (req : DataFlowRequest) (result : DataFlowResult) :
    Bool × DataFlowResult × SwState :=
  (true, ⟨.kOk, result.crcOutput ++ (List.range req.num).map (e.swCtx obj), req.userCtx⟩, e)

end SwEngine

def swEngine : DataFlowEngine SwState where
  submit := SwEngine.submit
  checkCompletion := SwEngine.checkCompletion
  ctx_of_completed := fun _ _ _ _ _ => rfl

structure Accepted (E : Type) where
  ops : DataFlowOperations
  userCtx : Nat
  engine : E

/-- A channel with its history: the accepted submissions, the number of the one that each object was
last queued for, the calls of `CheckCompletion` and the entries filled by `Poll`, each with the
submission of its object. -/
structure DataFlowRun (E : Type) where
  channel : DataFlowChannelImpl E
  accepted : List (Accepted E)
  holder : Nat → Option Nat
  checks : List (Option Nat × CompletionCheck E)
  reported : List (Option Nat × DataFlowChannelImpl.Filled)

/-- A call of the channel with the time of the clock, or a change of the engine between calls. -/
inductive DataFlowEvent (E : Type) where
  | submit (ops : DataFlowOperations) (userCtx now : Nat)
  | poll (results : List DataFlowResult) (now : Nat)
  | engine (change : E → E)

namespace DataFlowRun

def new (orderType : DataFlowPollOrderType) (timeoutTs : Nat) (engine : E) : DataFlowRun E :=
  ⟨.init orderType timeoutTs engine, [], fun _ => none, [], []⟩

def submit (run : DataFlowRun E) (ops : DataFlowOperations) (userCtx now : Nat) :
    DataFlowRun E :=
  let (result, channel) := run.channel.submit eng ops userCtx now
  if result = .kOk then
    { run with
      channel := channel
      accepted := run.accepted ++ [⟨ops, userCtx, run.channel.engine⟩]
      holder := match run.channel.cachedResource with
        | [] => run.holder
        | obj :: _ => update run.holder obj (some run.accepted.length) }
  else { run with channel := channel }

def poll (run : DataFlowRun E) (results : List DataFlowResult) (now : Nat) :
    DataFlowRun E :=
  let (filled, channel) := run.channel.poll eng results now
  { run with
    channel := channel
    checks := run.checks ++ channel.checks.map fun c => (run.holder c.obj, c)
    reported := run.reported ++ filled.map fun f => (run.holder f.obj, f) }

def step (run : DataFlowRun E) : DataFlowEvent E → Except Empty (DataFlowRun E)
  | .submit ops userCtx now => .ok (run.submit eng ops userCtx now)
  | .poll results now => .ok (run.poll eng results now)
  | .engine change => .ok { run with channel := { run.channel with engine := change run.channel.engine } }

end DataFlowRun

end Vesal
