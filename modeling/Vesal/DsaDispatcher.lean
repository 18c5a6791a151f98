import Vesal.Codec

/-!
# The dispatcher of the DSA work queues

`DsaDispatcher` of `dsa_dispatcher.cc` with the strategies of `schedule_strategy.h`. A work queue is
named by its place in `wq_list_`. The quota string is a list of bytes. The portals and the gauges
are left out; a work queue that `GetNextWorkQueue` gives has a portal.
-/

namespace Vesal

abbrev kMaxNumaNum : Int := 32
abbrev kWorkQueueCapacity : Nat := 128

inductive DataFlowScheduleHintType where
  | kNumaAware
  | kDeviceAware
  | kRoundRobin
  | kNum
deriving DecidableEq, Repr

structure WorkQueueInfo where
  numaNode : Int
  dsaIndex : Nat
  capacity : Nat
  size : Nat
deriving DecidableEq, Repr

/-- An uncaught exception, a failed check, an index outside its array, a division by zero, or a
strategy that was not made. -/
inductive DsaFault where
  | uncaught
  | checkFailed
  | indexOutOfRange
  | divisionByZero
  | nullStrategy
deriving DecidableEq, Repr

abbrev comma : UInt8 := 44

def isdigit (c : UInt8) : Bool := decide (48 ≤ c) && decide (c ≤ 57)

def digitsValue (digits : List UInt8) : Nat := digits.foldl (fun n c => n * 10 + (c.toNat - 48)) 0

/-- `std::stoull` of a token without blanks and signs: it throws without a digit, and where the number
does not fit. -/
def stoull (token : List UInt8) : Except DsaFault Nat :=
  let digits := token.takeWhile isdigit
  if digits = [] then .error .uncaught
  else if 2 ^ 64 ≤ digitsValue digits then .error .uncaught
  else .ok (digitsValue digits)

def parseLoop : List UInt8 → List UInt8 → List Nat → Except DsaFault (List Nat)
  | [], token, v =>
    if token = [] then .ok v
    else
      match stoull token with
      | .error fault => .error fault
      | .ok number => .ok (v ++ [number])
  | c :: s, token, v =>
    if c = comma then
      if token = [] then parseLoop s [] v
      else
        match stoull token with
        | .error fault => .error fault
        | .ok number => parseLoop s [] (v ++ [number])
    else parseLoop s (token ++ [c]) v

def parse (s : List UInt8) : Except DsaFault (List Nat) := parseLoop s [] []

def validLoop : List UInt8 → Bool → Bool
  | [], _ => true
  | c :: s, lastWasComma =>
    if isdigit c then validLoop s false
    else if c = comma then if lastWasComma then false else validLoop s true
    else false

def isValidNumberList (s : List UInt8) : Bool :=
  match s.head?, s.getLast? with
  | some front, some back => isdigit front && isdigit back && validLoop s false
  | _, _ => false

inductive ScheduleStrategy where
  | numaAware (wqListByNuma : Nat → List Nat)
  | deviceAware (wqListByDsaIndex : List (Option Nat))
  | roundRobin (wqList : List Nat)

namespace ScheduleStrategy

def numaLoop : List WorkQueueInfo → Nat → (Nat → List Nat) → Except DsaFault (Nat → List Nat)
  | [], _, byNuma => .ok byNuma
  | wq :: wqs, i, byNuma =>
    if 0 < wq.capacity then
      if ¬ wq.numaNode < kMaxNumaNum then .error .checkFailed
      else if wq.numaNode < 0 then .error .indexOutOfRange
      else
        numaLoop wqs (i + 1) (Function.update byNuma wq.numaNode.toNat (byNuma wq.numaNode.toNat ++ [i]))
    else numaLoop wqs (i + 1) byNuma

def dsaIndexMax (wqs : List WorkQueueInfo) : Nat :=
  wqs.foldl (fun m wq => if 0 < wq.capacity ∧ m < wq.dsaIndex then wq.dsaIndex else m) 0

def deviceLoop : List WorkQueueInfo → Nat → List (Option Nat) → Except DsaFault (List (Option Nat))
  | [], _, byIndex => .ok byIndex
  | wq :: wqs, i, byIndex =>
    if 0 < wq.capacity then
      match byIndex[wq.dsaIndex]? with
      | none => .error .indexOutOfRange
      | some (some _) => .error .checkFailed
      | some none => deviceLoop wqs (i + 1) (byIndex.set wq.dsaIndex (some i))
    else deviceLoop wqs (i + 1) byIndex

def roundRobinLoop : List WorkQueueInfo → Nat → List Nat → List Nat
  | [], _, wqList => wqList
  | wq :: wqs, i, wqList => roundRobinLoop wqs (i + 1) (if 0 < wq.capacity then wqList ++ [i] else wqList)

def make (hintType : DataFlowScheduleHintType) (wqs : List WorkQueueInfo) : Except DsaFault ScheduleStrategy :=
  if wqs = [] then .error .checkFailed
  else
    match hintType with
    | .kNumaAware =>
      match numaLoop wqs 0 fun _ => [] with
      | .error fault => .error fault
      | .ok byNuma => .ok (.numaAware byNuma)
    | .kDeviceAware =>
      match deviceLoop wqs 0 (List.replicate (dsaIndexMax wqs + 1) none) with
      | .error fault => .error fault
      | .ok byIndex => .ok (.deviceAware byIndex)
    | .kRoundRobin | .kNum => .ok (.roundRobin (roundRobinLoop wqs 0 []))

def atCounter (wqList : List Nat) (tlsCounter : Nat) : Except DsaFault (Option Nat) :=
  if wqList.length = 0 then .error .divisionByZero
  else
    match wqList[tlsCounter % wqList.length]? with
    | none => .error .indexOutOfRange
    | some wq => .ok (some wq)

/-- `GetNext` with the counter of the thread that is read; null is none. -/
def getNext (scheduleHint tlsCounter : Nat) : ScheduleStrategy → Except DsaFault (Option Nat)
  | .numaAware byNuma =>
    if kMaxNumaNum ≤ scheduleHint then .ok none
    else if byNuma scheduleHint = [] then .ok none
    else atCounter (byNuma scheduleHint) tlsCounter
  | .deviceAware byIndex =>
    if byIndex.length ≤ scheduleHint then .ok none
    else
      match byIndex[scheduleHint]? with
      | none => .error .indexOutOfRange
      | some wq => .ok wq
  | .roundRobin wqList => atCounter wqList tlsCounter

end ScheduleStrategy

/-- `returned` are the DSA indices of the work queues that were given to `ReturnWorkQueue`. -/
structure DsaDispatcher where
  wqList : List WorkQueueInfo
  strategy : Option ScheduleStrategy
  init : Bool
  returned : List Nat

namespace DsaDispatcher

def obtained (nodes : List Int) : List WorkQueueInfo :=
  nodes.zipIdx.map fun node => ⟨node.1, node.2, 0, 0⟩

def cleanUp (d : DsaDispatcher) : DsaDispatcher :=
  ⟨[], none, false, d.returned ++ d.wqList.map WorkQueueInfo.dsaIndex⟩

/-- By default, grab all quota from DSA0 only. -/
def defaultQuota : List WorkQueueInfo → List WorkQueueInfo
  | [] => []
  | wq :: wqs => { wq with capacity := kWorkQueueCapacity } :: wqs.map fun wq => { wq with capacity := 0 }

def setQuota (wqs : List WorkQueueInfo) (quota : List Nat) : List WorkQueueInfo :=
  List.zipWith (fun wq capacity => { wq with capacity := capacity }) wqs quota

def withStrategy (hintType : DataFlowScheduleHintType) (wqs : List WorkQueueInfo) :
    Except DsaFault (StatusCode × DsaDispatcher) :=
  match ScheduleStrategy.make hintType wqs with
  | .error fault => .error fault
  | .ok strategy => .ok (.kOk, ⟨wqs, some strategy, true, []⟩)

def initDispatcher (dsaQuota : List UInt8) (nodes : List Int) (hintType : DataFlowScheduleHintType) :
    Except DsaFault (StatusCode × DsaDispatcher) :=
  let d : DsaDispatcher := ⟨obtained nodes, none, true, []⟩
  if d.wqList = [] then .ok (.kHardwareError, d.cleanUp)
  else if dsaQuota = [] then withStrategy hintType (defaultQuota d.wqList)
  else if !isValidNumberList dsaQuota then .ok (.kInvalidArgument, d.cleanUp)
  else
    match parse dsaQuota with
    | .error fault => .error fault
    | .ok quota =>
      if quota.length ≠ d.wqList.length then .ok (.kInvalidArgument, d.cleanUp)
      else withStrategy hintType (setQuota d.wqList quota)

def choose (d : DsaDispatcher) (scheduleHint tlsCounter : Nat) : Except DsaFault (Option Nat) :=
  match d.strategy with
  | none => .error .nullStrategy
  | some strategy => strategy.getNext scheduleHint tlsCounter

end DsaDispatcher

/-- Where a thread is in `Submit`: outside, after `fetch_add` gave the old size, or after the test
against the capacity failed. -/
inductive SubmitPoint where
  | idle
  | added (wq result : Nat)
  | rejected (wq : Nat)
deriving DecidableEq, Repr

/-- The work queues, the threads, and the requests accepted and not yet notified with their work
queues. `size` is a `uint64_t` and does not wrap: it is at most the number of these requests and threads. -/
structure DispatcherRun where
  wqList : List WorkQueueInfo
  threads : List SubmitPoint
  accepted : List (Nat × Nat)

inductive DispatcherEvent where
  | fetchAdd (thread wq : Nat)
  | testCapacity (thread req : Nat)
  | fetchSub (thread : Nat)
  | notifyCompletion (req wq : Nat)
deriving DecidableEq, Repr

namespace DispatcherRun

def init (wqList : List WorkQueueInfo) (threads : Nat) : DispatcherRun :=
  ⟨wqList.map fun wq => { wq with size := 0 }, List.replicate threads .idle, []⟩

variable (run : DispatcherRun)

def changeSize (wq : Nat) (f : Nat → Nat) : DispatcherRun :=
  { run with wqList := run.wqList.modify wq fun info => { info with size := f info.size } }

/-- A step of `Submit` or `NotifyCompletion`, where a thread is at its start. -/
def step : DispatcherEvent → Except Unit DispatcherRun
  | .fetchAdd thread wq =>
    match run.threads[thread]?, run.wqList[wq]? with
    | some .idle, some info =>
      .ok { run.changeSize wq (· + 1) with threads := run.threads.set thread (.added wq info.size) }
    | _, _ => .error ()
  | .testCapacity thread req =>
    match run.threads[thread]? with
    | some (.added wq result) =>
      match run.wqList[wq]? with
      | none => .error ()
      | some info =>
        if result < info.capacity then
          .ok { run with threads := run.threads.set thread .idle, accepted := (req, wq) :: run.accepted }
        else .ok { run with threads := run.threads.set thread (.rejected wq) }
    | _ => .error ()
  | .fetchSub thread =>
    match run.threads[thread]? with
    | some (.rejected wq) => .ok { run.changeSize wq (· - 1) with threads := run.threads.set thread .idle }
    | _ => .error ()
  | .notifyCompletion req wq => .ok { run.changeSize wq (· - 1) with accepted := run.accepted.erase (req, wq) }

def notifiesAccepted : DispatcherEvent → Prop
  | .notifyCompletion req wq => (req, wq) ∈ run.accepted
  | _ => True

instance (run : DispatcherRun) (ev : DispatcherEvent) : Decidable (run.notifiesAccepted ev) :=
  match ev with
  | .notifyCompletion req wq => inferInstanceAs (Decidable ((req, wq) ∈ run.accepted))
  | .fetchAdd _ _ | .testCapacity _ _ | .fetchSub _ => isTrue trivial

end DispatcherRun

end Vesal
