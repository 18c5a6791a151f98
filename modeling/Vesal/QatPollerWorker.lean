import Vesal.CodecChannel

/-!
# The worker of the shared mode

`QatPollerWorker` of `qat_poller_worker.cc` over an engine. Tasks wait in `worker_tasks_`; a pass of
the poller drains some of them, submits them and merges what the engine reports with the tasks that
could not be submitted. The metrics are left out, with the time stamp and the channel of a request,
which only they read.
-/

namespace Vesal

abbrev kMaxSubmitNum : Nat := 128

/-- The request of a task. `userCb` is `none` for a null pointer. -/
structure CodecRequest where
  src : List Nat
  srcLen : List UInt32
  dst : Nat
  dstLen : UInt32
  userCtx : Nat
  userCb : Option Nat
  direction : CodecDirection
deriving DecidableEq

/-- A task with the address of its object. `submitR` is what the submission returned; the source
sets it when the submission fails. -/
structure WorkerTask where
  addr : Nat
  req : CodecRequest
  submitR : StatusCode
  reqId : Nat
deriving DecidableEq

def WorkerTask.new (addr : Nat) (req : CodecRequest) : WorkerTask := ⟨addr, req, .kOk, 0⟩

/-- An engine under a worker, with the tasks accepted and not yet reported. It reports each of them once
and in the order of acceptance. A result is given with the task that its `ctx` points to. -/
structure PollerEngine (E : Type) where
  submitAsyncRequest : E → WorkerTask → StatusCode × E
  poll : E → Nat → Int × List (WorkerTask × CodecResult) × E
  held : E → List WorkerTask
  held_submit : ∀ e task, held (submitAsyncRequest e task).2 =
    if (submitAsyncRequest e task).1 = .kOk then held e ++ [task] else held e
  poll_length : ∀ e maxNum, (poll e maxNum).2.1.length = (poll e maxNum).1.toNat
  poll_order : ∀ e maxNum, (poll e maxNum).2.1.map Prod.fst = (held e).take (poll e maxNum).1.toNat
  held_poll : ∀ e maxNum, held (poll e maxNum).2.2 = (held e).drop (poll e maxNum).1.toNat

structure Handled where
  task : WorkerTask
  result : CodecResult
deriving DecidableEq

def handleUserCallback (h : Handled) : Option (Nat × CodecResult) := h.task.req.userCb.map fun cb => (cb, h.result)

/-- The two ids are `uint64_t` in the source. They are only compared, and with ids of tasks that the worker
has, of which there are fewer than 2 ^ 64, so that a wrap does not matter. -/
structure QatPollerWorker (E : Type) where
  workerTasks : List WorkerTask
  submitFailedTasks : List WorkerTask
  worker : E
  reqId : Nat
  expectedReqId : Nat
  inflightNum : Nat

variable {E : Type} (eng : PollerEngine E)

namespace QatPollerWorker

def init (engine : E) : QatPollerWorker E := ⟨[], [], engine, 1, 1, 0⟩

variable (w : QatPollerWorker E)

def hasUnFinishedReqs : Bool :=
  decide (0 < w.inflightNum) || !w.submitFailedTasks.isEmpty || !w.workerTasks.isEmpty

def matchedExpReqId (reqId : Nat) : Bool × QatPollerWorker E :=
  if reqId ≠ w.expectedReqId then (false, w) else (true, { w with expectedReqId := w.expectedReqId + 1 })

def drainTasks (taskNum : Nat) : List WorkerTask × QatPollerWorker E :=
  let taskNum := min taskNum kMaxSubmitNum
  (w.workerTasks.take taskNum, { w with workerTasks := w.workerTasks.drop taskNum })

def submitOne (task : WorkerTask) : WorkerTask × QatPollerWorker E :=
  let task := { task with reqId := w.reqId }
  let submitted := eng.submitAsyncRequest w.worker task
  let w := { w with worker := submitted.2, reqId := w.reqId + 1 }
  if submitted.1 ≠ .kOk then
    let task := { task with submitR := submitted.1 }
    (task, { w with submitFailedTasks := w.submitFailedTasks ++ [task] })
  else (task, { w with inflightNum := w.inflightNum + 1 })

def submitLoop (eng : PollerEngine E) : List WorkerTask → QatPollerWorker E → List WorkerTask × QatPollerWorker E
  | [], w => ([], w)
  | task :: buffer, w =>
    let (task, w) := submitOne eng w task
    let (tasks, w) := submitLoop eng buffer w
    (task :: tasks, w)

def submitFailedResult (task : WorkerTask) : CodecResult :=
  { CodecChannel.noResult with status := task.submitR, ctx := task.req.userCtx }

def tryProcessOneFailedTask : Option (Handled × QatPollerWorker E) :=
  match w.submitFailedTasks with
  | [] => none
  | failedTask :: tasks =>
    let (matched, w) := w.matchedExpReqId failedTask.reqId
    if matched then some (⟨failedTask, submitFailedResult failedTask⟩, { w with submitFailedTasks := tasks }) else none

lemma length_of_tryProcess {w w' : QatPollerWorker E} {h : Handled} (heq : w.tryProcessOneFailedTask = some (h, w')) :
    w'.submitFailedTasks.length < w.submitFailedTasks.length := by
  unfold tryProcessOneFailedTask at heq
  split at heq
  · cases heq
  · rename_i task tasks htasks
    dsimp only at heq
    split at heq
    · cases heq
      rw [htasks]
      exact Nat.lt_succ_self _
    · cases heq

def processFailedTasks (w : QatPollerWorker E) : List Handled × QatPollerWorker E :=
  match heq : w.tryProcessOneFailedTask with
  | none => ([], w)
  | some (h, w') =>
    have := length_of_tryProcess heq
    let (handled, w'') := processFailedTasks w'
    (h :: handled, w'')
termination_by w.submitFailedTasks.length

def mergeLoop : List (WorkerTask × CodecResult) → QatPollerWorker E → List Handled × QatPollerWorker E
  | [], w => ([], w)
  | (task, result) :: results, w =>
    let (failed, w) := w.processFailedTasks
    let (_, w) := w.matchedExpReqId task.reqId
    let (handled, w) := mergeLoop results { w with inflightNum := w.inflightNum - 1 }
    (failed ++ ⟨task, { result with ctx := task.req.userCtx }⟩ :: handled, w)

/-- `PollingAndMerge` with what the engine returned to it; its own return value is not read. -/
def pollingAndMerge :
    List (WorkerTask × CodecResult) × List Handled × QatPollerWorker E :=
  let polled := eng.poll w.worker kMaxSubmitNum
  let w := { w with worker := polled.2.2 }
  (polled.2.1, if polled.1 ≤ 0 then w.processFailedTasks else mergeLoop polled.2.1 w)

/-- What a pass has done: the tasks submitted, the results that the engine reported, and the calls of
`HandleUserCallback`. -/
structure Pass (E : Type) where
  drained : List WorkerTask
  reported : List (WorkerTask × CodecResult)
  handled : List Handled
  worker : QatPollerWorker E

def submitAndPoll (buffer : List WorkerTask) (w : QatPollerWorker E) : Pass E :=
  let (drained, w) := submitLoop eng buffer w
  let (reported, handled, w) := w.pollingAndMerge eng
  ⟨drained, reported, handled, w⟩

/-- `LoopOnce`. The argument `polling_num` is not used by the source. -/
def loopOnce (submitNum : Nat) : Pass E :=
  let (buffer, w) := w.drainTasks submitNum
  submitAndPoll eng buffer w

end QatPollerWorker

/-- A worker with its history: the tasks that were drained, in drain order, the results that the
engine reported and the calls of `HandleUserCallback`. -/
structure WorkerRun (E : Type) where
  worker : QatPollerWorker E
  drained : List WorkerTask
  reported : List (WorkerTask × CodecResult)
  handled : List Handled

/-- A task is pushed, the poller calls `LoopOnce`, or the engine changes between the calls. -/
inductive WorkerEvent (E : Type) where
  | push (addr : Nat) (req : CodecRequest)
  | loopOnce (submitNum : Nat)
  | engine (change : E → E)

namespace WorkerRun

def new (engine : E) : WorkerRun E := ⟨.init engine, [], [], []⟩

variable (run : WorkerRun E)

def append (pass : QatPollerWorker.Pass E) : WorkerRun E :=
  ⟨pass.worker, run.drained ++ pass.drained, run.reported ++ pass.reported, run.handled ++ pass.handled⟩

def step : WorkerEvent E → Except Empty (WorkerRun E)
  | .push addr req =>
    .ok { run with worker := { run.worker with workerTasks := run.worker.workerTasks ++ [.new addr req] } }
  | .loopOnce submitNum => .ok (run.append (run.worker.loopOnce eng submitNum))
  | .engine change => .ok { run with worker := { run.worker with worker := change run.worker.worker } }

def callbacks : List (Nat × CodecResult) := run.handled.filterMap handleUserCallback

end WorkerRun

end Vesal
