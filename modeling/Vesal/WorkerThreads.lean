import Vesal.QatPollerWorker

/-!
# A worker and its threads

User threads that call `Schedule` and the poller thread, which runs `LoopOnce` until it runs
`Uninit`. An event is one atomic step of a thread. `LoopOnce` takes the tasks out of the queue one by
one; the rest of it does not touch what the threads share.
-/

namespace Vesal

/-- Where a call of `Schedule` is: behind its load of `running_`, with its task, or returned. -/
inductive SchedulePhase where
  | loaded | created | returned (status : StatusCode)
deriving DecidableEq

structure ScheduleCall where
  req : CodecRequest
  phase : SchedulePhase
deriving DecidableEq

/-- Where the poller thread is: between two calls of `LoopOnce`, in `DrainTasks` of a call by `Run`
or by `Uninit`, before `HasUnFinishedReqs`, before `Close`, before `reset`, or behind `Uninit`. -/
inductive PollerPhase where
  | run
  | draining (uninit : Bool) (buffer : List WorkerTask)
  | check
  | close
  | reset
  | returned
deriving DecidableEq

/-- The worker with the history of its passes. The task of the call with number `i` has the address
`i`. `pushedLate` are the calls whose push found the worker reset. -/
structure WorkerThreads (E : Type) where
  running : Bool
  passes : WorkerRun E
  poller : PollerPhase
  calls : List ScheduleCall
  pushedLate : List Nat

inductive ThreadEvent where
  | load (req : CodecRequest)
  | create (call : Nat)
  | push (call : Nat)
  | loopOnce
  | pop
  | submitAndPoll
  | store
  | hasUnFinishedReqs
  | close
  | reset

inductive ThreadFault where
  | notEnabled
deriving DecidableEq

namespace WorkerThreads

variable {E : Type}

def new (engine : E) : WorkerThreads E := ⟨true, .new engine, .run, [], []⟩

variable (s : WorkerThreads E)

def load (req : CodecRequest) : WorkerThreads E :=
  { s with calls := s.calls ++ [⟨req, if s.running then .loaded else .returned .kResourceBusy⟩] }

variable (call : Nat)

def setPhase (c : ScheduleCall) (phase : SchedulePhase) : WorkerThreads E :=
  { s with calls := s.calls.set call { c with phase := phase } }

def enqueue (task : WorkerTask) : WorkerThreads E :=
  { s with
    passes := { s.passes with
      worker := { s.passes.worker with workerTasks := s.passes.worker.workerTasks ++ [task] } }
    pushedLate := if s.poller = .returned then s.pushedLate ++ [task.addr] else s.pushedLate }

def create : Except ThreadFault (WorkerThreads E) :=
  match s.calls[call]? with
  | some c => if c.phase = .loaded then .ok (s.setPhase call c .created) else .error .notEnabled
  | none => .error .notEnabled

def push : Except ThreadFault (WorkerThreads E) :=
  match s.calls[call]? with
  | some c =>
    if c.phase = .created then .ok ((s.setPhase call c (.returned .kOk)).enqueue (.new call c.req))
    else .error .notEnabled
  | none => .error .notEnabled

def pop : Except ThreadFault (WorkerThreads E) :=
  match s.poller, s.passes.worker.workerTasks with
  | .draining uninit buffer, task :: tasks =>
    if buffer.length < kMaxSubmitNum then
      .ok { s with
        passes := { s.passes with worker := { s.passes.worker with workerTasks := tasks } }
        poller := .draining uninit (buffer ++ [task]) }
    else .error .notEnabled
  | _, _ => .error .notEnabled

def submitAndPoll (eng : PollerEngine E) (s : WorkerThreads E) : Except ThreadFault (WorkerThreads E) :=
  match s.poller with
  | .draining uninit buffer =>
    if buffer.length = kMaxSubmitNum ∨ s.passes.worker.workerTasks = [] then
      .ok { s with
        passes := s.passes.append (QatPollerWorker.submitAndPoll eng buffer s.passes.worker)
        poller := if uninit then .check else .run }
    else .error .notEnabled
  | _ => .error .notEnabled

def advance (phase next : PollerPhase) : Except ThreadFault (WorkerThreads E) :=
  if s.poller = phase then .ok { s with poller := next } else .error .notEnabled

def step (eng : PollerEngine E) (s : WorkerThreads E) : ThreadEvent → Except ThreadFault (WorkerThreads E)
  | .load req => .ok (s.load req)
  | .create call => s.create call
  | .push call => s.push call
  | .loopOnce => s.advance .run (.draining false [])
  | .pop => s.pop
  | .submitAndPoll => s.submitAndPoll eng
  | .store => if s.poller = .run then .ok { s with running := false, poller := .check } else .error .notEnabled
  | .hasUnFinishedReqs =>
    s.advance .check (if s.passes.worker.hasUnFinishedReqs then .draining true [] else .close)
  | .close => s.advance .close .reset
  | .reset => s.advance .reset .returned

end WorkerThreads

end Vesal
